import SharpOauth.LowerCase
import SharpOauth.AuthorizationSafety

/-! # Accounts over a run of sign-ups and sign-ins

An account is found by its email, so sign-up and sign-in have to agree on what the email of an
account is.  Both take the normal form of the text they are given, and a normal form is its own
normal form (`normalizeEmail_normal`): that is what lets the owner of a stored email sign in.

* `Account.Run` is a run of `signUp` and `authenticate` calls with arbitrary texts.  It keeps, next
  to the tables, what is not stored: the password each account signed up with.
* `Account.SignUp` lists what a sign-up can do, and `Account.Consistent` is the invariant of a run.
* Outside code enters as three assumptions: Argon2 verifies exactly the password it hashed
  (`Crates.VerifiesHashed`), `str::to_lowercase` follows the Unicode tables, and a drawn id is not
  the id of an account. -/

namespace SharpOauth

/-- A hash verifies the password it was made from and no other. -/
def Crates.VerifiesHashed (cr : Crates) : Prop :=
  ∀ salt password hash, cr.hashPassword salt password = .ok hash →
    ∀ attempt, cr.verifyPassword attempt hash = .ok (decide (attempt = password))

namespace Account

/-! ### Normal forms -/

section normal

variable {cr : Crates} {raw email : String}

theorem trim_of_no_whitespace {s : String} (h : ∀ c ∈ s.toList, isWhitespace c = false) :
    trim s = s := by
  have hdrop (l : List Char) (hl : ∀ c ∈ l, isWhitespace c = false) :
      l.dropWhile isWhitespace = l := by
    cases l with
    | nil => rfl
    | cons c l => exact List.dropWhile_cons_of_neg (by simp [hl c List.mem_cons_self])
  rw [trim, hdrop _ h, hdrop _ fun c hc => h c (List.mem_reverse.1 hc), List.reverse_reverse,
    String.ofList_toList]

/-- What the normal form of an email is like. -/
theorem normalizeEmail_spec (h : normalizeEmail cr raw = some email) :
    email = cr.toLowercase (trim raw) ∧ (utf8 email).length ≤ 254 ∧
      ∀ c ∈ email.toList, isWhitespace c = false := by
  unfold normalizeEmail at h
  cases hsplit : splitOnce '@' (cr.toLowercase (trim raw)) with
  | none => simp [hsplit] at h
  | some parts =>
      simp only [hsplit, Option.bind_eq_bind, Option.bind_some, Option.ite_none_right_eq_some,
        Option.some.injEq] at h
      obtain ⟨⟨_, _, _, _, _, hlength, hall⟩, rfl⟩ := h
      refine ⟨rfl, hlength, fun c hc => ?_⟩
      have hc := List.all_eq_true.1 hall c hc
      simp only [Bool.and_eq_true, Bool.not_eq_true'] at hc
      exact hc.1

/-- **A normal form is its own normal form.** -/
theorem normalizeEmail_normal (hlower : ∀ s, cr.toLowercase (cr.toLowercase s) = cr.toLowercase s)
    (h : normalizeEmail cr raw = some email) : normalizeEmail cr email = some email := by
  obtain ⟨hemail, -, hspace⟩ := normalizeEmail_spec h
  have hsame : cr.toLowercase (trim email) = cr.toLowercase (trim raw) := by
    rw [trim_of_no_whitespace hspace, hemail, hlower]
  unfold normalizeEmail at h ⊢
  rw [hsame]
  exact h

end normal

/-! ### One sign-up -/

/-- The input of a sign-up that nothing but a taken email speaks against. -/
structure NewAccount.Valid (cr : Crates) (account : NewAccount) (email : String) : Prop where
  email : normalizeEmail cr account.email = some email
  passwordMin : minPasswordChars ≤ account.password.toList.length
  passwordMax : (utf8 account.password).length ≤ maxPasswordBytes
  displayName : ∀ name, account.displayName = some name →
    (trim name).toList.length ≤ maxDisplayNameChars

/-- The user that a sign-up stores. -/
def NewAccount.user (d : Draws) (account : NewAccount) (email passwordHash : String) : User :=
  newUser d email passwordHash ((account.displayName.map trim).filter (· ≠ ""))

/-- What a sign-up does: it refuses the account, or finds the email taken, or stores the account. -/
inductive SignUp (cr : Crates) (d : Draws) (account : NewAccount) (faults : List Bool) (db : Db) :
    Except SignUpError User → Db → Prop where
  | refused (err : SignUpError) (herr : err ≠ .emailTaken)
      (hrefused : ∀ email passwordHash, account.Valid cr email →
        cr.hashPassword d.salt account.password = .ok passwordHash → faults.headD false = true) :
      SignUp cr d account faults db (.error err) db
  | taken (email passwordHash : String) (hvalid : account.Valid cr email)
      (hhash : cr.hashPassword d.salt account.password = .ok passwordHash)
      (hfaults : faults.headD false = false) (u : User) (hu : u ∈ db.users) (htaken : u.email = email) :
      SignUp cr d account faults db (.error .emailTaken) db
  | created (email passwordHash : String) (hvalid : account.Valid cr email)
      (hhash : cr.hashPassword d.salt account.password = .ok passwordHash)
      (hfaults : faults.headD false = false) (hnew : ∀ u ∈ db.users, u.email ≠ email) (db' : Db)
      (husers : db'.users = db.users ++ [account.user d email passwordHash]) :
      SignUp cr d account faults db (.ok (account.user d email passwordHash)) db'

/-- The length check of the display name; a blank name counts as none. -/
theorem displayName_check (displayName : Option String) :
    ((displayName.map trim).filter (· ≠ "")).any (fun name => name.toList.length > maxDisplayNameChars)
      = true ↔ ∃ name, displayName = some name ∧ maxDisplayNameChars < (trim name).toList.length := by
  cases displayName with
  | none => simp
  | some name =>
      by_cases hempty : trim name = ""
      · simp [Option.filter_some, hempty]
      · simp [Option.filter_some, hempty]

/-- How the result of the insert is reported. -/
def stored (user : User) : Except SqlError Unit → Except SignUpError User
  | .ok () => .ok user
  | .error .duplicate => .error .emailTaken
  | .error e => .error (.internal (.database e))

section signUp

variable {cr : Crates} {d : Draws} {account : NewAccount} {email passwordHash : String}
  {faults : List Bool} {db : Db}

/-- A valid sign-up is the insert, and the report of its result. -/
theorem signUp_of_valid (hvalid : account.Valid cr email)
    (hhash : cr.hashPassword d.salt account.password = .ok passwordHash) :
    signUp cr d account =
      (Prog.attempt (query (ε := SqlError) (.usersInsert (account.user d email passwordHash)))).bind
        fun r => .ofExcept (stored (account.user d email passwordHash) r) := by
  unfold signUp
  have hpassword : ¬(account.password.toList.length < minPasswordChars ∨
      (utf8 account.password).length > maxPasswordBytes) := by
    have := hvalid.passwordMin
    have := hvalid.passwordMax
    omega
  have hname := mt (displayName_check account.displayName).1 fun ⟨name, hdisplay, hlong⟩ =>
    absurd (hvalid.displayName name hdisplay) (not_le.2 hlong)
  simp only [hvalid.email, Prog.okOr_some, Prog.bind_eq, Prog.ret_bind, if_neg hpassword,
    if_neg hname, hhash, Except.mapError, Prog.ofExcept_ok]
  refine congrArg _ (funext fun r => ?_)
  cases r with
  | ok u => rfl
  | error e => cases e <;> rfl

/-- Any other sign-up is refused before the insert. -/
theorem signUp_of_not_valid (h : ∀ email passwordHash, account.Valid cr email →
      cr.hashPassword d.salt account.password ≠ .ok passwordHash) :
    ∃ err, err ≠ .emailTaken ∧ signUp cr d account = .fail err := by
  unfold signUp
  cases hemail : normalizeEmail cr account.email with
  | none => exact ⟨.invalidEmail, by decide, rfl⟩
  | some email =>
      simp only [Prog.okOr_some, Prog.bind_eq, Prog.ret_bind]
      split_ifs with hpassword hname
      · exact ⟨.invalidPassword, by decide, rfl⟩
      · exact ⟨.invalidDisplayName, by decide, rfl⟩
      · have hvalid : account.Valid cr email := by
          refine ⟨hemail, by omega, by omega, fun name hdisplay => ?_⟩
          rw [displayName_check] at hname
          exact not_lt.1 fun hlong => hname ⟨name, hdisplay, hlong⟩
        cases hhash : cr.hashPassword d.salt account.password with
        | error e => exact ⟨.internal (.internal e), by simp, rfl⟩
        | ok passwordHash => exact absurd hhash (h email passwordHash hvalid)

/-- A statement whose result is looked at. -/
theorem serve_attempt_query (q : Stmt) (faults : List Bool) (db : Db) :
    (Prog.attempt (query (ε := SqlError) q) : Service SignUpError _).serve faults db =
      if faults.headD false then (.ok (.error .failed), db) else (.ok (db.result q), db.after q) := by
  have hrun (x : Except SqlError (Ret q)) (fs : List Bool) (c : Conn Sharp) :
      (Prog.attempt (Prog.ofExcept x : Service SqlError _) : Service SignUpError _).run fs c =
        (.ok x, c) := by
    cases x with
    | ok a => rfl
    | error e => rfl
  unfold query Handler.query
  rw [Prog.serve, Prog.attempt, Prog.run]
  cases faults.headD false with
  | false => exact congrArg (fun r => (r.1, r.2.db)) (hrun (db.result q) _ ⟨db.after q, none⟩)
  | true => exact congrArg (fun r => (r.1, r.2.db)) (hrun (.error .failed) _ ⟨db, none⟩)

theorem insert_taken {u : User} (hu : u ∈ db.users) (hemail : u.email = email) :
    db.result (.usersInsert (account.user d email passwordHash)) = .error .duplicate ∧
      db.after (.usersInsert (account.user d email passwordHash)) = db := by
  have hclash : (db .users).any (clash .users (account.user d email passwordHash)) = true :=
    List.any_eq_true.2 ⟨u, hu, by simp [clash, NewAccount.user, newUser, hemail]⟩
  constructor
  · rw [Db.result, sem, Sql.exec, if_pos hclash]
  · rw [Db.after, sem, Sql.exec, if_pos hclash]

theorem insert_new (hfresh : ∀ u ∈ db.users, u.id ≠ d.uuid 0) (hnew : ∀ u ∈ db.users, u.email ≠ email) :
    db.result (.usersInsert (account.user d email passwordHash)) = .ok () := by
  have hclash : ¬(db .users).any (clash .users (account.user d email passwordHash)) = true := by
    intro h
    obtain ⟨u, hu, h⟩ := List.any_eq_true.1 h
    have h : d.uuid 0 = u.id ∨ email = u.email := by
      simpa [clash, NewAccount.user, newUser] using h
    cases h with
    | inl h => exact hfresh u hu h.symm
    | inr h => exact hnew u hu h.symm
  rw [Db.result, sem, Sql.exec, if_neg hclash]

/-- **One sign-up**, with a drawn id that no account has. -/
theorem signUp_serve (hfresh : ∀ u ∈ db.users, u.id ≠ d.uuid 0) :
    SignUp cr d account faults db ((signUp cr d account).serve faults db).1
      ((signUp cr d account).serve faults db).2 := by
  by_cases hready : ∃ email passwordHash, account.Valid cr email ∧
      cr.hashPassword d.salt account.password = .ok passwordHash
  · obtain ⟨email, passwordHash, hvalid, hhash⟩ := hready
    rw [signUp_of_valid hvalid hhash, Prog.serve_bind_ofExcept, serve_attempt_query]
    cases hfaults : faults.headD false with
    | true =>
        exact .refused (.internal (.database .failed)) (by simp) fun _ _ _ _ => hfaults
    | false =>
        rw [if_neg Bool.false_ne_true]
        by_cases htaken : ∃ u ∈ db.users, u.email = email
        · obtain ⟨u, hu, hemail⟩ := htaken
          obtain ⟨hresult, hafter⟩ : db.result (.usersInsert (account.user d email passwordHash)) =
                .error .duplicate ∧
              db.after (.usersInsert (account.user d email passwordHash)) = db :=
            insert_taken hu hemail
          rw [hresult, hafter]
          exact .taken email passwordHash hvalid hhash hfaults u hu hemail
        · simp only [not_exists, not_and] at htaken
          have hinsert : db.result (.usersInsert (account.user d email passwordHash)) = .ok () :=
            insert_new hfresh htaken
          rw [hinsert]
          exact .created email passwordHash hvalid hhash hfaults htaken _
            (Db.after_usersInsert _ hinsert)
  · simp only [not_exists, not_and] at hready
    obtain ⟨err, herr, heq⟩ := signUp_of_not_valid hready
    rw [heq]
    exact .refused err herr fun email passwordHash hvalid hhash =>
      absurd hhash (hready email passwordHash hvalid)

end signUp

/-! ### One sign-in -/

section authenticate

variable {st : AppState} {email password : String} {faults : List Bool} {db : Db} {user : User}

theorem findByRawEmail_none (hemail : normalizeEmail st.toCrates email = none) :
    (findByRawEmail st.toCrates email).serve faults db = (.ok none, db) := by
  unfold findByRawEmail
  rw [hemail]
  rfl

theorem findByRawEmail_some {e : String} (hemail : normalizeEmail st.toCrates email = some e) :
    (findByRawEmail st.toCrates email).serve faults db =
      if faults.headD false then (.error (.database .failed), db)
      else (.ok (db.users.find? fun r => r.email = e), db) := by
  unfold findByRawEmail query Handler.query
  rw [hemail, Prog.serve, Prog.run]
  cases faults.headD false with
  | false => rfl
  | true => rfl

theorem findByRawEmail_db : ((findByRawEmail st.toCrates email).serve faults db).2 = db := by
  cases hemail : normalizeEmail st.toCrates email with
  | none => rw [findByRawEmail_none hemail]
  | some e =>
      rw [findByRawEmail_some hemail]
      split_ifs <;> rfl

theorem findByRawEmail_found :
    ((findByRawEmail st.toCrates email).serve faults db).1 = .ok (some user) ↔
      faults.headD false = false ∧ ∃ e, normalizeEmail st.toCrates email = some e ∧
        db.users.find? (fun r => r.email = e) = some user := by
  cases hemail : normalizeEmail st.toCrates email with
  | none => simp [findByRawEmail_none hemail]
  | some e =>
      rw [findByRawEmail_some hemail]
      cases faults.headD false with
      | false => simp
      | true => simp

/-- What a sign-in answers, by the account it finds. -/
def verdict (st : AppState) (password : String) (user : Option User) :
    Except AppError (Option User) :=
  ((st.verifyPassword password ((user.map User.passwordHash).getD st.dummyPasswordHash)).map
    fun ok => user.filter fun _ => ok).mapError AppError.internal

/-- A sign-in is the account lookup, and then Argon2. -/
theorem authenticate_eq (st : AppState) (email password : String) :
    authenticate st email password =
      (findByRawEmail st.toCrates email).bind fun user => .ofExcept (verdict st password user) := by
  unfold authenticate
  refine congrArg _ (funext fun user => ?_)
  cases user with
  | none =>
      simp only [verdict, Option.map_none, Option.getD_none]
      cases st.verifyPassword password st.dummyPasswordHash <;> rfl
  | some user =>
      simp only [verdict, Option.map_some, Option.getD_some]
      cases st.verifyPassword password user.passwordHash <;> rfl

theorem verdict_eq_some {found : Option User} : verdict st password found = .ok (some user) ↔
    found = some user ∧ st.verifyPassword password user.passwordHash = .ok true := by
  unfold verdict
  cases found with
  | none =>
      simp only [Option.map_none, Option.getD_none]
      cases st.verifyPassword password st.dummyPasswordHash <;> simp [Except.map, Except.mapError]
  | some u =>
      simp only [Option.map_some, Option.getD_some, Option.some.injEq]
      constructor
      · intro h
        cases hverify : st.verifyPassword password u.passwordHash with
        | error e => simp [hverify, Except.map, Except.mapError] at h
        | ok b =>
            cases b with
            | false => simp [hverify, Except.map, Except.mapError] at h
            | true =>
                have hu : u = user := by simpa [hverify, Except.map, Except.mapError] using h
                exact ⟨hu, hu ▸ hverify⟩
      · rintro ⟨rfl, hverify⟩
        simp [hverify, Except.map, Except.mapError]

/-- A sign-in writes nothing. -/
theorem authenticate_db : ((authenticate st email password).serve faults db).2 = db := by
  rw [authenticate_eq, Prog.serve_bind_ofExcept]
  exact findByRawEmail_db

/-- **One sign-in.** -/
theorem authenticate_found : ((authenticate st email password).serve faults db).1 = .ok (some user) ↔
    faults.headD false = false ∧ (∃ e, normalizeEmail st.toCrates email = some e ∧
      db.users.find? (fun r => r.email = e) = some user) ∧
        st.verifyPassword password user.passwordHash = .ok true := by
  rw [authenticate_eq, Prog.serve_bind_ofExcept, ← and_assoc, ← findByRawEmail_found]
  cases ((findByRawEmail st.toCrates email).serve faults db).1 with
  | error e => simp [Except.bind]
  | ok found => simp [Except.bind, verdict_eq_some]

end authenticate

/-! ### Runs -/

/-- The accounts with their passwords, after a sign-up. -/
def recorded (log : List (User × String)) (account : NewAccount) :
    Except SignUpError User → List (User × String)
  | .ok user => log ++ [(user, account.password)]
  | .error _ => log

/-- A run of sign-ups and sign-ins, with the accounts it created and their passwords. -/
inductive Run (st : AppState) : Db → List (User × String) → Prop where
  | init : Run st Db.init []
  | signUp {db : Db} {log : List (User × String)} (run : Run st db log) (d : Draws)
      (account : NewAccount) (faults : List Bool) (hfresh : ∀ u ∈ db.users, u.id ≠ d.uuid 0) :
      Run st ((signUp st.toCrates d account).serve faults db).2
        (recorded log account ((signUp st.toCrates d account).serve faults db).1)
  | authenticate {db : Db} {log : List (User × String)} (run : Run st db log)
      (email password : String) (faults : List Bool) :
      Run st ((authenticate st email password).serve faults db).2 log

/-- What holds in every state of a run. -/
structure Consistent (cr : Crates) (db : Db) (log : List (User × String)) : Prop where
  users : db.users = log.map Prod.fst
  emails : (db.users.map User.email).Nodup
  normal : ∀ u ∈ db.users, normalizeEmail cr u.email = some u.email
  passwords : ∀ entry ∈ log, ∃ salt, cr.hashPassword salt entry.2 = .ok entry.1.passwordHash

theorem Consistent.signUp {cr : Crates} {d : Draws} {account : NewAccount} {faults : List Bool}
    {db db' : Db} {log : List (User × String)} {r : Except SignUpError User}
    (hlower : ∀ s, cr.toLowercase (cr.toLowercase s) = cr.toLowercase s)
    (h : Consistent cr db log) (hsignUp : SignUp cr d account faults db r db') :
    Consistent cr db' (recorded log account r) := by
  cases hsignUp with
  | refused err herr hrefused => exact h
  | taken email passwordHash hvalid hhash hfaults u hu htaken => exact h
  | created email passwordHash hvalid hhash hfaults hnew db' husers =>
      refine ⟨?_, ?_, ?_, ?_⟩
      · simp [husers, recorded, h.users]
      · rw [husers, List.map_append, List.nodup_append]
        refine ⟨h.emails, List.nodup_singleton _, fun a ha b hb => ?_⟩
        obtain ⟨u, hu, rfl⟩ := List.mem_map.1 ha
        rw [List.mem_singleton.1 hb]
        exact hnew u hu
      · intro u hu
        rw [husers, List.mem_append, List.mem_singleton] at hu
        cases hu with
        | inl hu => exact h.normal u hu
        | inr hu =>
            rw [hu]
            exact normalizeEmail_normal hlower hvalid.email
      · intro entry hentry
        rw [recorded, List.mem_append, List.mem_singleton] at hentry
        cases hentry with
        | inl hentry => exact h.passwords entry hentry
        | inr hentry =>
            rw [hentry]
            exact ⟨d.salt, hhash⟩

theorem Run.consistent {st : AppState} {db : Db} {log : List (User × String)}
    (hlower : ∀ s, st.toLowercase (st.toLowercase s) = st.toLowercase s) (run : Run st db log) :
    Consistent st.toCrates db log := by
  induction run with
  | init => exact ⟨rfl, List.nodup_nil, fun _ hu => absurd hu List.not_mem_nil,
      fun _ hentry => absurd hentry List.not_mem_nil⟩
  | signUp run d account faults hfresh ih => exact ih.signUp hlower (signUp_serve hfresh)
  | authenticate run email password faults ih =>
      rw [authenticate_db]
      exact ih

/-! ### Who an account is -/

section agreement

variable {cr : Crates} {d : Draws} {account : NewAccount} {faults : List Bool} {db : Db}
  {log : List (User × String)} {email password : String} {user : User}

/-- A valid sign-up finds its email taken exactly when an account has it. -/
theorem emailTaken_iff (hfresh : ∀ u ∈ db.users, u.id ≠ d.uuid 0) (hvalid : account.Valid cr email) :
    ((signUp cr d account).serve faults db).1 = .error .emailTaken ↔
      faults.headD false = false ∧
        (∃ passwordHash, cr.hashPassword d.salt account.password = .ok passwordHash) ∧
        ∃ u ∈ db.users, u.email = email := by
  have houtcome : SignUp cr d account faults db _ _ := signUp_serve hfresh
  generalize ((signUp cr d account).serve faults db).1 = r at houtcome ⊢
  generalize ((signUp cr d account).serve faults db).2 = db' at houtcome
  cases houtcome with
  | refused err herr hrefused =>
      refine ⟨fun h => absurd (Except.error.inj h) herr, ?_⟩
      rintro ⟨hfaults, ⟨passwordHash, hhash⟩, _⟩
      exact absurd (hrefused email passwordHash hvalid hhash) (by rw [hfaults]; decide)
  | taken email' passwordHash hvalid' hhash hfaults u hu htaken =>
      have hsame : email' = email := Option.some.inj (hvalid'.email.symm.trans hvalid.email)
      exact ⟨fun _ => ⟨hfaults, ⟨passwordHash, hhash⟩, u, hu, htaken.trans hsame⟩, fun _ => rfl⟩
  | created email' passwordHash hvalid' hhash hfaults hnew db' husers =>
      have hsame : email' = email := Option.some.inj (hvalid'.email.symm.trans hvalid.email)
      refine ⟨fun h => (by cases h), ?_⟩
      rintro ⟨_, _, u, hu, hemail⟩
      exact absurd (hemail.trans hsame.symm) (hnew u hu)

theorem unchanged_of_error (hfresh : ∀ u ∈ db.users, u.id ≠ d.uuid 0) {err : SignUpError}
    (h : ((signUp cr d account).serve faults db).1 = .error err) :
    ((signUp cr d account).serve faults db).2 = db := by
  have houtcome : SignUp cr d account faults db _ _ := signUp_serve hfresh
  generalize ((signUp cr d account).serve faults db).1 = r at houtcome h
  generalize ((signUp cr d account).serve faults db).2 = db' at houtcome ⊢
  cases houtcome with
  | refused err herr hrefused => rfl
  | taken email passwordHash hvalid hhash hfaults u hu htaken => rfl
  | created email passwordHash hvalid hhash hfaults hnew db' husers => cases h

/-- With distinct emails a lookup finds every account. -/
theorem Consistent.find?_eq_some (h : Consistent cr db log) {e : String} :
    db.users.find? (fun r => r.email = e) = some user ↔ user ∈ db.users ∧ user.email = e := by
  constructor
  · intro hfind
    exact ⟨List.mem_of_find?_eq_some hfind, by simpa using List.find?_some hfind⟩
  · rintro ⟨hmem, rfl⟩
    refine find_only hmem (by simp) fun u hu hemail => ?_
    exact List.inj_on_of_nodup_map h.emails hu hmem (by simpa using hemail)

/-- A stored account and a password belong together when the hash verifies. -/
theorem Consistent.verifies_iff (hargon2 : cr.VerifiesHashed) (h : Consistent cr db log)
    (hmem : user ∈ db.users) :
    cr.verifyPassword password user.passwordHash = .ok true ↔ (user, password) ∈ log := by
  have hunique : ∀ entry ∈ log, entry.1 = user →
      (cr.verifyPassword password user.passwordHash = .ok true ↔ password = entry.2) := by
    intro entry hentry huser
    obtain ⟨salt, hhash⟩ := h.passwords entry hentry
    rw [← huser, hargon2 _ _ _ hhash password]
    simp
  constructor
  · intro hverify
    rw [h.users] at hmem
    obtain ⟨entry, hentry, huser⟩ := List.mem_map.1 hmem
    rw [(hunique entry hentry huser).1 hverify, ← huser]
    exact hentry
  · exact fun hentry => (hunique _ hentry rfl).2 rfl

end agreement

/-- **Sign-up and sign-in agree on who an account is**, in every state of a run: emails are
distinct normal forms; a valid sign-up is refused as taken exactly when an account has the normal
form of its email; and a sign-in gives an account exactly for its email and its password. -/
theorem accounts_agree {st : AppState} {t : CaseTables} (ht : t.Lawful)
    (hlower : st.toLowercase = t.lowercase) (hargon2 : st.VerifiesHashed) {db : Db}
    {log : List (User × String)} (run : Run st db log) :
    (db.users = log.map Prod.fst ∧ (db.users.map User.email).Nodup ∧ ∀ u ∈ db.users,
      (utf8 u.email).length ≤ 254 ∧ normalizeEmail st.toCrates u.email = some u.email) ∧
    (∀ d account faults email, (∀ u ∈ db.users, u.id ≠ d.uuid 0) →
      account.Valid st.toCrates email →
      (((signUp st.toCrates d account).serve faults db).1 = .error .emailTaken ↔
        faults.headD false = false ∧
          (∃ passwordHash, st.hashPassword d.salt account.password = .ok passwordHash) ∧
          ∃ u ∈ db.users, u.email = email) ∧
      (((signUp st.toCrates d account).serve faults db).1 = .error .emailTaken →
        ((signUp st.toCrates d account).serve faults db).2 = db)) ∧
    ∀ email password faults user,
      ((authenticate st email password).serve faults db).1 = .ok (some user) ↔
        faults.headD false = false ∧ normalizeEmail st.toCrates email = some user.email ∧
          (user, password) ∈ log := by
  have hconsistent : Consistent st.toCrates db log :=
    run.consistent fun s => by rw [hlower, ht.lowercase_lowercase]
  refine ⟨⟨hconsistent.users, hconsistent.emails, fun u hu => ?_⟩, ?_, ?_⟩
  · have hnormal := hconsistent.normal u hu
    exact ⟨(normalizeEmail_spec hnormal).2.1, hnormal⟩
  · exact fun d account faults email hfresh hvalid =>
      ⟨emailTaken_iff hfresh hvalid, unchanged_of_error hfresh⟩
  · intro email password faults user
    rw [authenticate_found]
    refine and_congr_right fun _ => ?_
    simp only [hconsistent.find?_eq_some]
    constructor
    · rintro ⟨⟨e, he, hmem, rfl⟩, hverify⟩
      exact ⟨he, (hconsistent.verifies_iff hargon2 hmem).1 hverify⟩
    · rintro ⟨he, hentry⟩
      have hmem : user ∈ db.users := by
        rw [hconsistent.users]
        exact List.mem_map_of_mem hentry
      exact ⟨⟨_, he, hmem, rfl⟩, (hconsistent.verifies_iff hargon2 hmem).2 hentry⟩

/-! ### A run with one sign-up -/

namespace Sample

/-- The case tables of Latin letters without diacritics, and of the sigmas. -/
def caseTables : CaseTables where
  lower c := if c = 'Σ' then ['σ'] else [c.toLower]
  cased c := c.isAlpha || ['Σ', 'σ', 'ς'].contains c
  ignorable c := ['\x27', '.', ':', '^', '\x60'].contains c

theorem caseTables_lawful : caseTables.Lawful := by
  refine ⟨fun c d hd => ?_, rfl, rfl⟩
  by_cases hc : c = 'Σ'
  · have hd : d = 'σ' := by simpa [caseTables, hc] using hd
    rw [hd]
    rfl
  · have hd : d = c.toLower := by simpa [caseTables, hc] using hd
    have hsigma : c.toLower ≠ 'Σ' := by
      intro h
      by_cases hupper : c.isUpper
      · have hlower : c.toLower.isLower = true := by simp [Char.isAlpha, hupper]
        rw [h] at hlower
        exact absurd hlower (by decide)
      · exact hc (by rwa [Char.toLower_eq_of_not_isUpper hupper] at h)
    simp [caseTables, hd, hsigma]

/-- The server with lower-casing by these tables. -/
def unicode : AppState := { SharpOauth.Sample.state with toLowercase := caseTables.lowercase }

theorem unicode_verifiesHashed : unicode.VerifiesHashed := by
  intro salt password hash hhash attempt
  have hhash : (if password = "password" then .ok SharpOauth.Sample.passwordHash
      else .error "unsupported" : Except String String) = .ok hash := hhash
  split_ifs at hhash with hpassword
  cases hhash
  simp [unicode, SharpOauth.Sample.state, hpassword]

def account : NewAccount := ⟨"U@A.example", "password", none⟩

theorem account_valid : account.Valid unicode.toCrates "u@a.example" :=
  ⟨by decide +kernel, by decide +kernel, by decide +kernel, fun _ h => by cases h⟩

/-- The tables after the sign-up. -/
def signedUp : Db := Db.init.set .users [SharpOauth.Sample.user]

theorem run : Run unicode signedUp [(SharpOauth.Sample.user, "password")] := by
  have hfresh : ∀ u ∈ Db.init.users, u.id ≠ (SharpOauth.Sample.draws 1).uuid 0 :=
    fun _ hu => absurd hu List.not_mem_nil
  have hserve : (signUp unicode.toCrates (SharpOauth.Sample.draws 1) account).serve [] Db.init =
      (.ok SharpOauth.Sample.user, signedUp) := by
    rw [signUp_of_valid account_valid rfl, Prog.serve_bind_ofExcept, serve_attempt_query]
    rfl
  have hrun := Run.signUp (.init : Run unicode _ _) (SharpOauth.Sample.draws 1) account [] hfresh
  rw [hserve] at hrun
  exact hrun

end Sample

/-- The owner signs in, with the email in other letters. -/
theorem accounts_agree_signedUp :
    ((authenticate Sample.unicode " u@A.Example" "password").serve [] Sample.signedUp).1 =
      .ok (some SharpOauth.Sample.user) :=
  ((accounts_agree Sample.caseTables_lawful rfl Sample.unicode_verifiesHashed Sample.run).2.2
    _ _ _ _).2 ⟨rfl, by decide +kernel, by simp⟩

end Account

end SharpOauth
