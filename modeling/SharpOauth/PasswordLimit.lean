import SharpOauth.AuthorizationSafety

/-! # The length of the passwords that are hashed

Argon2 is slow on purpose, so its input has to be bounded.  Here the two operations of `password.rs`
are calls of the program, like its statements (`Work`): `Hashing.signUp` and `Hashing.authenticate`
say when each of them is made.  With Argon2 answered in its place they are `signUp` and
`authenticate` (`answered_signUp`, `answered_authenticate`), and a run of one is a run of the other
(`exec_answered`).

`argon2Inputs` are the passwords that Argon2 is run on in a run.  `signUp` looks at the length before
it hashes (`argon2Inputs_signUp`).  `authenticate` does not: the password it is given is verified
whatever its length, for a known email, an unknown one and a malformed one
(`argon2Inputs_authenticate`). -/

namespace SharpOauth

/-! ### Argon2 as a call -/

/-- What an account service asks for: the database, and Argon2. -/
inductive Work where
  | db (o : Call Sharp)
  | hashPassword (password : String)
  | verifyPassword (password passwordHash : String)

/-- The answers. -/
abbrev Work.Ans : Work → Type
  | .db o => o.Ans
  | .hashPassword _ => Except String String
  | .verifyPassword _ _ => Except String Bool

/-- The password that a call runs Argon2 on. -/
def Work.input : Work → Option String
  | .db _ => none
  | .hashPassword password => some password
  | .verifyPassword password _ => some password

/-- Programs that call Argon2. -/
abbrev Hashes (ε α : Type) : Type := Prog Work Work.Ans ε α

namespace Hashing

open Account

section services

variable {ε : Type}

/-- Run one statement. -/
def query [Into SqlError ε] (q : Stmt) : Hashes ε (Ret q) := .call (.db (.sql q)) fun r => .ofExcept r

/-- `hash_password` -/
def hashPassword (password : String) (err : String → ε) : Hashes ε String :=
  .call (.hashPassword password) fun r => .ofExcept (r.mapError err)

/-- `verify_password` -/
def verifyPassword (password passwordHash : String) (err : String → ε) : Hashes ε Bool :=
  .call (.verifyPassword password passwordHash) fun r => .ofExcept (r.mapError err)

end services

/-- Create a new account. -/
def signUp (cr : Crates) (d : Draws) (account : NewAccount) : Hashes SignUpError User := do
  let email ← Prog.okOr (normalizeEmail cr account.email) .invalidEmail
  if account.password.toList.length < minPasswordChars ∨
      (utf8 account.password).length > maxPasswordBytes then .fail .invalidPassword
  else
    let displayName := (account.displayName.map trim).filter (· ≠ "")
    if displayName.any fun name => name.toList.length > maxDisplayNameChars then
      .fail .invalidDisplayName
    else
      let passwordHash ← hashPassword account.password fun e => SignUpError.internal (.internal e)
      let user := newUser d email passwordHash displayName
      match ← Prog.attempt (query (ε := SqlError) (.usersInsert user)) with
      | .ok () => return user
      | .error .duplicate => .fail .emailTaken
      | .error e => .fail (.internal (.database e))

/-- The user of a normalised email, if the email has an account. -/
def findByRawEmail (cr : Crates) (email : String) : Hashes AppError (Option User) :=
  match normalizeEmail cr email with
  | some email => query (.usersFindByEmail email)
  | none => return none

/-- Verify an email and password. -/
def authenticate (st : AppState) (email password : String) : Hashes AppError (Option User) := do
  let user ← findByRawEmail st.toCrates email
  -- Argon2 runs even for unknown emails.
  let hash := match user with
    | some user => user.passwordHash
    | none => st.dummyPasswordHash
  let passwordOk ← verifyPassword password hash AppError.internal
  return user.filter fun _ => passwordOk

end Hashing

/-! ### Argon2 answered -/

namespace Work

variable (cr : Crates) (d : Draws) {ε ε' α β : Type}

/-- The program with Argon2 answered in its place. -/
def answered : Hashes ε α → Service ε α
  | .ret a => .ret a
  | .fail e => .fail e
  | .call (.db o) k => .call o fun r => answered (k r)
  | .call (.hashPassword password) k => answered (k (cr.hashPassword d.salt password))
  | .call (.verifyPassword password passwordHash) k =>
      answered (k (cr.verifyPassword password passwordHash))

/-- What a call returns, by the faults to come and the connection. -/
def answer : (o : Work) → List Bool × Conn Sharp → o.Ans × (List Bool × Conn Sharp)
  | .db o, (faults, c) =>
      ((c.answer (faults.headD false) o).1, faults.tail, (c.answer (faults.headD false) o).2)
  | .hashPassword password, s => (cr.hashPassword d.salt password, s)
  | .verifyPassword password passwordHash, s => (cr.verifyPassword password passwordHash, s)

theorem answered_bind (p : Hashes ε α) (f : α → Hashes ε β) :
    answered cr d (p.bind f) = (answered cr d p).bind fun a => answered cr d (f a) := by
  induction p with
  | ret a => rfl
  | fail e => rfl
  | call o k ih =>
      cases o with
      | db o => exact congrArg (Prog.call o) (funext fun r => ih r)
      | hashPassword password => exact ih _
      | verifyPassword password passwordHash => exact ih _

theorem answered_attempt (p : Hashes ε α) :
    answered cr d (p.attempt : Hashes ε' (Except ε α)) = (answered cr d p).attempt := by
  induction p with
  | ret a => rfl
  | fail e => rfl
  | call o k ih =>
      cases o with
      | db o => exact congrArg (Prog.call o) (funext fun r => ih r)
      | hashPassword password => exact ih _
      | verifyPassword password passwordHash => exact ih _

theorem answered_ofExcept [Into ε ε'] (x : Except ε α) :
    answered cr d (.ofExcept x : Hashes ε' α) = .ofExcept x := by
  cases x <;> rfl

theorem answered_query [Into SqlError ε] (q : Stmt) :
    answered cr d (Hashing.query q : Hashes ε (Ret q)) = query q := by
  unfold Hashing.query query Handler.query
  rw [answered]
  exact congrArg _ (funext fun r => answered_ofExcept cr d r)

/-- **A run is a run of the program with Argon2 answered.** -/
theorem exec_answered (p : Hashes ε α) : ∀ (faults : List Bool) (c : Conn Sharp),
    (p.exec (answer cr d) (faults, c)).1 = ((answered cr d p).run faults c).1 ∧
      (p.exec (answer cr d) (faults, c)).2.2 = ((answered cr d p).run faults c).2 := by
  induction p with
  | ret a => exact fun _ _ => ⟨rfl, rfl⟩
  | fail e => exact fun _ _ => ⟨rfl, rfl⟩
  | call o k ih =>
      intro faults c
      cases o with
      | db o => exact ih _ _ _
      | hashPassword password => exact ih _ _ _
      | verifyPassword password passwordHash => exact ih _ _ _

end Work

namespace Account

open Work (answered answer)

theorem answered_signUp (cr : Crates) (d : Draws) (account : NewAccount) :
    answered cr d (Hashing.signUp cr d account) = signUp cr d account := by
  unfold Hashing.signUp signUp
  simp only [Prog.bind_eq, Prog.pure_eq]
  cases normalizeEmail cr account.email with
  | none => rfl
  | some email =>
      simp only [Prog.okOr_some, Prog.ret_bind]
      split_ifs
      · rfl
      · rfl
      · rw [Work.answered_bind]
        refine congrArg₂ _ (Work.answered_ofExcept cr d _) (funext fun passwordHash => ?_)
        rw [Work.answered_bind, Work.answered_attempt, Work.answered_query]
        refine congrArg _ (funext fun r => ?_)
        cases r with
        | ok u => rfl
        | error e => cases e <;> rfl

theorem answered_findByRawEmail (cr : Crates) (d : Draws) (email : String) :
    answered cr d (Hashing.findByRawEmail cr email) = findByRawEmail cr email := by
  unfold Hashing.findByRawEmail findByRawEmail
  cases normalizeEmail cr email with
  | none => rfl
  | some email => exact Work.answered_query cr d _

theorem answered_authenticate (st : AppState) (d : Draws) (email password : String) :
    answered st.toCrates d (Hashing.authenticate st email password) = authenticate st email password := by
  unfold Hashing.authenticate authenticate
  simp only [Prog.bind_eq, Prog.pure_eq]
  rw [Work.answered_bind, answered_findByRawEmail]
  refine congrArg _ (funext fun user => ?_)
  rw [Work.answered_bind]
  exact congrArg₂ _ (Work.answered_ofExcept st.toCrates d _) rfl

/-! ### What Argon2 is run on -/

/-- The passwords that Argon2 is run on in a run of the program. -/
def argon2Inputs {ε α : Type} (cr : Crates) (d : Draws) (p : Hashes ε α) (faults : List Bool) (db : Db) :
    List String :=
  (p.record (answer cr d) (faults, { db })).filterMap Work.input

section inputs

variable {cr : Crates} {d : Draws} {faults : List Bool} {db : Db} {p : String}

theorem callsOnly_query {ε : Type} [Into SqlError ε] {allowed : Work → Prop} {q : Stmt}
    (h : allowed (.db (.sql q))) : (Hashing.query q : Hashes ε (Ret q)).CallsOnly allowed :=
  .call _ _ h fun r => .ofExcept r

/-- **A sign-up runs Argon2** on its own password only, and only after the length check. -/
theorem argon2Inputs_signUp {account : NewAccount}
    (h : p ∈ argon2Inputs cr d (Hashing.signUp cr d account) faults db) :
    p = account.password ∧ (utf8 p).length ≤ maxPasswordBytes := by
  have hcalls : (Hashing.signUp cr d account).CallsOnly fun o =>
      ∀ p, o.input = some p → p = account.password ∧ (utf8 p).length ≤ maxPasswordBytes := by
    unfold Hashing.signUp
    simp only [Prog.bind_eq, Prog.pure_eq]
    cases normalizeEmail cr account.email with
    | none => exact .fail _
    | some email =>
        simp only [Prog.okOr_some, Prog.ret_bind]
        split_ifs with hlength
        · exact .fail _
        · exact .fail _
        · refine .bind (.call _ _ ?_ fun r => .ofExcept _) fun passwordHash => ?_
          · intro p hp
            cases hp
            exact ⟨rfl, by omega⟩
          · refine .bind (.attempt (callsOnly_query (by rintro _ ⟨⟩))) fun r => ?_
            split
            · exact .ret _
            · exact .fail _
            · exact .fail _
  obtain ⟨o, ho, hp⟩ := List.mem_filterMap.1 h
  exact hcalls.record (answer cr d) _ o ho p hp

/-- The account lookup runs no Argon2. -/
theorem argon2Inputs_findByRawEmail (email : String) :
    argon2Inputs cr d (Hashing.findByRawEmail cr email) faults db = [] := by
  have hcalls : (Hashing.findByRawEmail cr email).CallsOnly fun o => o.input = none := by
    unfold Hashing.findByRawEmail
    cases normalizeEmail cr email with
    | none => exact .ret _
    | some email => exact callsOnly_query rfl
  rw [argon2Inputs, List.filterMap_eq_nil_iff]
  exact hcalls.record (answer cr d) _

/-- **A sign-in runs Argon2** on the password it is given, unless the account lookup fails, and on
no other. -/
theorem argon2Inputs_authenticate {st : AppState} {email password : String} :
    p ∈ argon2Inputs st.toCrates d (Hashing.authenticate st email password) faults db ↔
      p = password ∧ ∃ user, ((findByRawEmail st.toCrates email).serve faults db).1 = .ok user := by
  have hlookup : ((Hashing.findByRawEmail st.toCrates email).exec (answer st.toCrates d)
      (faults, { db })).1 = ((findByRawEmail st.toCrates email).serve faults db).1 := by
    rw [(Work.exec_answered st.toCrates d _ faults { db }).1, answered_findByRawEmail, Prog.serve]
  have hnone : argon2Inputs st.toCrates d (Hashing.findByRawEmail st.toCrates email) faults db = [] :=
    argon2Inputs_findByRawEmail email
  rw [argon2Inputs] at hnone
  unfold argon2Inputs Hashing.authenticate
  rw [Prog.bind_eq, Prog.record_bind, List.filterMap_append, hnone, List.nil_append]
  generalize (Hashing.findByRawEmail st.toCrates email).exec (answer st.toCrates d)
    (faults, { db }) = found at hlookup ⊢
  obtain ⟨found, s⟩ := found
  rw [← hlookup]
  cases found with
  | error e => simp
  | ok user =>
      -- What comes after the verification calls nothing.
      have hlast (x : Except AppError Bool) (s : List Bool × Conn Sharp) :
          ((Prog.ofExcept x : Hashes AppError Bool).bind fun passwordOk =>
            .ret (user.filter fun _ => passwordOk)).record (answer st.toCrates d) s = [] := by
        cases x <;> rfl
      simp [Hashing.verifyPassword, Prog.record, hlast, Work.input]

/-- With no fault the account lookup answers. -/
theorem findByRawEmail_ok (cr : Crates) (email : String) (db : Db) :
    ∃ user, ((findByRawEmail cr email).serve [] db).1 = .ok user := by
  unfold findByRawEmail
  cases normalizeEmail cr email with
  | none => exact ⟨none, rfl⟩
  | some e => exact ⟨_, rfl⟩

end inputs

/-! ### The bound -/

/-- **What Argon2 is run on**: at sign-up never more than `maxPasswordBytes`; at sign-in never
more exactly when the password sent in is not longer than that. -/
theorem passwords_bounded (st : AppState) (d : Draws) :
    (∀ account faults db, ∀ p ∈ argon2Inputs st.toCrates d (Hashing.signUp st.toCrates d account) faults
      db, (utf8 p).length ≤ maxPasswordBytes) ∧
    ∀ email password, (∀ faults db, ∀ p ∈ argon2Inputs st.toCrates d
      (Hashing.authenticate st email password) faults db, (utf8 p).length ≤ maxPasswordBytes) ↔
        (utf8 password).length ≤ maxPasswordBytes := by
  refine ⟨fun account faults db p hp => (argon2Inputs_signUp hp).2, fun email password => ?_⟩
  constructor
  · intro h
    exact h [] Db.init password (argon2Inputs_authenticate.2 ⟨rfl, findByRawEmail_ok ..⟩)
  · intro h faults db p hp
    rw [(argon2Inputs_authenticate.1 hp).1]
    exact h

/-- A sign-in with a password of 1025 letters, to a server with one account. -/
theorem signIn_unbounded :
    String.ofList (List.replicate 1025 'a') ∈ argon2Inputs SharpOauth.Sample.state.toCrates
        (SharpOauth.Sample.draws 2) (Hashing.authenticate SharpOauth.Sample.state "u@a.example"
          (String.ofList (List.replicate 1025 'a'))) [] SharpOauth.Sample.signedUp ∧
      ¬(utf8 (String.ofList (List.replicate 1025 'a'))).length ≤ maxPasswordBytes := by
  refine ⟨argon2Inputs_authenticate.2 ⟨rfl, findByRawEmail_ok ..⟩, ?_⟩
  rw [utf8_of_ascii, List.length_map, String.toList_ofList, List.length_replicate]
  · decide
  · intro c hc
    rw [String.toList_ofList] at hc
    rw [List.eq_of_mem_replicate hc]
    decide

end Account

end SharpOauth
