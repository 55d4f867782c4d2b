import SharpOauth.Shared

/-! # Parameters, scopes and PKCE

The three values a request carries on the wire and the checks made on them before anything is
looked up.

* **`Params`**: request parameters in which no name occurs twice; `Params.fromPairs` is the
  only way to build them from a request.
* **`ScopeSet`**: a set of scope names, kept as a strictly sorted list, so that equal sets have
  equal string forms (`ScopeSet.ext_mem`).  What `parse` accepts it also reads back from the
  string form (`ScopeSet.parse_toString`), which is how scopes are stored.
* **PKCE**: the S256 challenge of a verifier. -/

namespace SharpOauth

/-! ### Parameters -/

/-- A parameter name that appeared more than once. -/
structure DuplicateParameter where
  name : String
deriving DecidableEq, Repr

/-- Request parameters with every name appearing at most once. -/
structure Params where
  pairs : List (String × String)
  nodup : (pairs.map Prod.fst).Nodup

namespace Params

/-- No parameters. -/
def empty : Params := ⟨[], List.nodup_nil⟩

/-- One more parameter. -/
def insert (p : Params) (name value : String) (h : name ∉ p.pairs.map Prod.fst) : Params :=
  ⟨(name, value) :: p.pairs, List.nodup_cons.2 ⟨h, p.nodup⟩⟩

/-- The loop of `fromPairs`. -/
def collect (map : Params) : List (String × String) → Except DuplicateParameter Params
  | [] => .ok map
  | (name, value) :: rest =>
      if h : name ∈ map.pairs.map Prod.fst then .error ⟨name⟩
      else (map.insert name value h).collect rest

/-- The parameters of a request, unless a name is repeated. -/
def fromPairs (pairs : List (String × String)) : Except DuplicateParameter Params :=
  empty.collect pairs

/-- A parameter's value; an empty value counts as missing. -/
def get (p : Params) (name : String) : Option String :=
  (p.pairs.lookup name).filter (· ≠ "")

theorem get_ne_empty {p : Params} {name value : String} (h : p.get name = some value) :
    value ≠ "" := by
  simpa using (Option.filter_eq_some_iff.1 h).2

theorem collect_pairs (pairs : List (String × String)) : ∀ (map p : Params),
    map.collect pairs = .ok p → p.pairs = pairs.reverse ++ map.pairs := by
  induction pairs with
  | nil =>
      intro map p h
      cases h
      rfl
  | cons x rest ih =>
      intro map p h
      obtain ⟨name, value⟩ := x
      by_cases hx : name ∈ map.pairs.map Prod.fst
      · simp [collect, hx] at h
      · rw [collect, dif_neg hx] at h
        rw [ih _ _ h]
        simp [insert]

theorem collect_ok (pairs : List (String × String)) : ∀ map : Params,
    (pairs.map Prod.fst).Nodup → (∀ x ∈ pairs, x.1 ∉ map.pairs.map Prod.fst) →
    ∃ p, map.collect pairs = .ok p := by
  induction pairs with
  | nil => exact fun map _ _ => ⟨map, rfl⟩
  | cons x rest ih =>
      intro map hnodup hnew
      obtain ⟨name, value⟩ := x
      have hx : name ∉ map.pairs.map Prod.fst := hnew _ List.mem_cons_self
      rw [List.map_cons, List.nodup_cons] at hnodup
      rw [collect, dif_neg hx]
      refine ih _ hnodup.2 fun y hy => ?_
      rw [insert, List.map_cons, List.mem_cons, not_or]
      exact ⟨fun h => hnodup.1 (h ▸ List.mem_map_of_mem hy), hnew y (List.mem_cons_of_mem _ hy)⟩

/-- A parameter of a request that was accepted. -/
theorem get_of_mem {pairs : List (String × String)} {p : Params} (hp : fromPairs pairs = .ok p)
    {name value : String} (h : (name, value) ∈ pairs) (hvalue : value ≠ "") :
    p.get name = some value := by
  have hpairs : p.pairs = pairs.reverse := by
    rw [collect_pairs pairs _ p hp, empty, List.append_nil]
  have hmem : (name, value) ∈ p.pairs := by rw [hpairs]; simpa using h
  have hlookup : p.pairs.lookup name = some value := by
    have hnodup := p.nodup
    revert hmem hnodup
    generalize p.pairs = l
    intro hmem hnodup
    induction l with
    | nil => exact absurd hmem List.not_mem_nil
    | cons x rest ih =>
        rw [List.map_cons, List.nodup_cons] at hnodup
        rcases List.mem_cons.1 hmem with rfl | hmem
        · simp
        · have hne : name ≠ x.1 := fun hname => hnodup.1 (hname ▸ List.mem_map_of_mem hmem)
          rw [List.lookup_cons, show (name == x.1) = false by simpa using hne]
          exact ih hmem hnodup.2
  rw [get, hlookup, Option.filter_some, if_pos (by simpa using hvalue)]

/-- The parameters of a request that was accepted. -/
theorem get_eq_some_iff {pairs : List (String × String)} {p : Params} (hp : fromPairs pairs = .ok p)
    {name value : String} : p.get name = some value ↔ (name, value) ∈ pairs ∧ value ≠ "" := by
  constructor
  · intro h
    have hpairs : p.pairs = pairs.reverse := by
      rw [collect_pairs pairs _ p hp, empty, List.append_nil]
    obtain ⟨hlookup, -⟩ := Option.filter_eq_some_iff.1 h
    rw [hpairs] at hlookup
    obtain ⟨l, r, heq, -⟩ := List.lookup_eq_some_iff.1 hlookup
    refine ⟨?_, get_ne_empty h⟩
    rw [← List.mem_reverse, heq]
    simp
  · exact fun h => get_of_mem hp h.1 h.2

/-- **Exactly the requests that repeat no name are accepted.** -/
theorem fromPairs_ok_iff (pairs : List (String × String)) :
    (∃ p, fromPairs pairs = .ok p) ↔ (pairs.map Prod.fst).Nodup := by
  constructor
  · rintro ⟨p, h⟩
    have hp := p.nodup
    rw [collect_pairs pairs _ p h, empty, List.append_nil, List.map_reverse, List.nodup_reverse] at hp
    exact hp
  · exact fun h => collect_ok pairs empty h fun _ _ => by simp [empty]

end Params

/-! ### Scopes -/

/-- A set of scope names. -/
structure ScopeSet where
  names : List String
  sorted : names.Pairwise (· < ·)
deriving DecidableEq

inductive ScopeError where
  | empty
  | invalidCharacters
deriving DecidableEq, Repr

/-- Insertion into a strictly sorted list. -/
def insertName (x : String) : List String → List String
  | [] => [x]
  | y :: ys => if x < y then x :: y :: ys else if x = y then y :: ys else y :: insertName x ys

theorem mem_insertName {x y : String} {l : List String} : y ∈ insertName x l ↔ y = x ∨ y ∈ l := by
  induction l with
  | nil => simp [insertName]
  | cons z zs ih =>
      rw [insertName]
      split_ifs with h1 h2
      · simp
      · simp [h2]
      · simp only [List.mem_cons, ih]
        tauto

theorem insertName_sorted {x : String} {l : List String} (h : l.Pairwise (· < ·)) :
    (insertName x l).Pairwise (· < ·) := by
  induction l with
  | nil => simp [insertName]
  | cons z zs ih =>
      have hz := List.pairwise_cons.1 h
      rw [insertName]
      split_ifs with h1 h2
      · refine List.pairwise_cons.2 ⟨fun y hy => ?_, h⟩
        rcases List.mem_cons.1 hy with rfl | hy
        · exact h1
        · exact h1.trans (hz.1 y hy)
      · exact h
      · refine List.pairwise_cons.2 ⟨fun y hy => ?_, ih hz.2⟩
        rcases mem_insertName.1 hy with rfl | hy
        · exact lt_of_le_of_ne (not_lt.1 h1) (Ne.symm h2)
        · exact hz.1 y hy

namespace ScopeSet

instance : Membership String ScopeSet := ⟨fun s x => x ∈ s.names⟩

instance (x : String) (s : ScopeSet) : Decidable (x ∈ s) :=
  inferInstanceAs (Decidable (x ∈ s.names))

theorem mem_def {x : String} {s : ScopeSet} : x ∈ s ↔ x ∈ s.names := Iff.rfl

theorem ext_mem {s t : ScopeSet} (h : ∀ x, x ∈ s ↔ x ∈ t) : s = t := by
  obtain ⟨l, hl⟩ := s
  obtain ⟨m, hm⟩ := t
  obtain rfl : l = m := hl.eq_of_mem_iff hm h
  rfl

/-- No scopes. -/
def empty : ScopeSet := ⟨[], List.Pairwise.nil⟩

/-- One more scope. -/
def insert (s : ScopeSet) (x : String) : ScopeSet := ⟨insertName x s.names, insertName_sorted s.sorted⟩

/-- The set of the given names. -/
def ofList (names : List String) : ScopeSet := names.foldl insert empty

/-- All scopes in either set. -/
def union (s t : ScopeSet) : ScopeSet := t.names.foldl insert s

/-- Every scope of the first set is in the second. -/
def isSubsetOf (s t : ScopeSet) : Bool := s.names.all (· ∈ t.names)

def contains (s : ScopeSet) (x : String) : Bool := x ∈ s

/-- The names, sorted. -/
def toList (s : ScopeSet) : List String := s.names

/-- The space-delimited wire format. -/
def toString (s : ScopeSet) : String :=
  String.ofList ([' '].intercalate (s.names.map String.toList))

@[simp] theorem not_mem_empty (x : String) : x ∉ empty := List.not_mem_nil

@[simp] theorem mem_insert {x y : String} {s : ScopeSet} : y ∈ s.insert x ↔ y = x ∨ y ∈ s :=
  mem_insertName

theorem mem_foldl_insert {x : String} (names : List String) : ∀ s : ScopeSet,
    x ∈ names.foldl insert s ↔ x ∈ names ∨ x ∈ s := by
  induction names with
  | nil => simp
  | cons y ys ih =>
      intro s
      rw [List.foldl_cons, ih, mem_insert, List.mem_cons]
      tauto

@[simp] theorem mem_ofList {x : String} {names : List String} : x ∈ ofList names ↔ x ∈ names := by
  simp [ofList, mem_foldl_insert]

@[simp] theorem mem_union {x : String} {s t : ScopeSet} : x ∈ s.union t ↔ x ∈ s ∨ x ∈ t := by
  rw [union, mem_foldl_insert, or_comm, mem_def (s := t)]

@[simp] theorem mem_toList {x : String} {s : ScopeSet} : x ∈ s.toList ↔ x ∈ s := Iff.rfl

@[simp] theorem isSubsetOf_iff {s t : ScopeSet} : s.isSubsetOf t = true ↔ ∀ x ∈ s, x ∈ t := by
  simp [isSubsetOf, mem_def]

@[simp] theorem ofList_toList (s : ScopeSet) : ofList s.toList = s := ext_mem fun x => by simp

/-- The characters of RFC 6749 §3.3. -/
def validToken (token : String) : Bool :=
  (utf8 token).all fun b =>
    b == 0x21 || (0x23 ≤ b.toNat && b.toNat ≤ 0x5B) || (0x5D ≤ b.toNat && b.toNat ≤ 0x7E)

/-- The loop of `parse`. -/
def collect (scopes : ScopeSet) : List String → Except ScopeError ScopeSet
  | [] => .ok scopes
  | token :: rest =>
      if validToken token then (scopes.insert token).collect rest else .error .invalidCharacters

/-- The non-empty parts of a scope string. -/
def tokens (raw : String) : List String := (splitAll ' ' raw).filter (· ≠ "")

/-- A space-delimited scope string. -/
def parse (raw : String) : Except ScopeError ScopeSet := do
  let scopes ← empty.collect (tokens raw)
  if scopes.names.isEmpty then .error .empty else .ok scopes

theorem collect_eq (tokens : List String) : ∀ s : ScopeSet,
    s.collect tokens = if tokens.all validToken then .ok (tokens.foldl insert s)
      else .error .invalidCharacters := by
  induction tokens with
  | nil => exact fun s => rfl
  | cons x xs ih =>
      intro s
      by_cases h : validToken x = true
      · simp [collect, h, ih]
      · simp [collect, h]

theorem ofList_names_isEmpty (names : List String) :
    (ofList names).names.isEmpty = names.isEmpty := by
  rw [Bool.eq_iff_iff, List.isEmpty_iff, List.isEmpty_iff, List.eq_nil_iff_forall_not_mem,
    List.eq_nil_iff_forall_not_mem]
  exact forall_congr' fun x => not_congr mem_ofList

/-- What `parse` accepts: some tokens, all valid. -/
theorem parse_eq_ok_iff {raw : String} {s : ScopeSet} : parse raw = .ok s ↔
    tokens raw ≠ [] ∧ (∀ x ∈ tokens raw, validToken x = true) ∧ s = ofList (tokens raw) := by
  rw [parse, collect_eq]
  by_cases hv : (tokens raw).all validToken = true
  · rw [if_pos hv, ← ofList]
    show (if (ofList (tokens raw)).names.isEmpty then .error .empty
      else .ok (ofList (tokens raw)) : Except ScopeError ScopeSet) = .ok s ↔ _
    rw [ofList_names_isEmpty]
    rw [List.all_eq_true] at hv
    by_cases he : tokens raw = []
    · simp [he]
    · rw [if_neg (by simpa using he), Except.ok.injEq]
      exact ⟨fun h => ⟨he, hv, h.symm⟩, fun h => h.2.2.symm⟩
  · rw [if_neg hv]
    constructor
    · exact fun h => nomatch h
    · exact fun h => absurd (List.all_eq_true.2 h.2.1) hv

theorem validToken_not_mem_space {token : String} (h : validToken token = true) :
    ' ' ∉ token.toList := by
  intro hmem
  have : (0x20 : UInt8) ∈ utf8 token := List.mem_flatMap.2 ⟨' ', hmem, by decide⟩
  exact absurd (List.all_eq_true.1 h _ this) (by decide)

/-- The tokens of the string form are the names. -/
theorem splitAll_toString {s : ScopeSet} (hne : s.names ≠ [])
    (hv : ∀ x ∈ s, validToken x = true) : splitAll ' ' s.toString = s.names := by
  rw [splitAll, toString, String.toList_ofList, List.splitOn_intercalate]
  · simp
  · intro l hl
    obtain ⟨x, hx, rfl⟩ := List.mem_map.1 hl
    exact validToken_not_mem_space (hv x hx)
  · simpa using hne

/-- **Round trip.**  A scope set that was parsed is read back from its string form. -/
theorem parse_toString {raw : String} {s : ScopeSet} (h : parse raw = .ok s) :
    parse s.toString = .ok s := by
  obtain ⟨hne, hv, hs⟩ := parse_eq_ok_iff.1 h
  have hmem : ∀ x, x ∈ s ↔ x ∈ tokens raw := fun x => by rw [hs, mem_ofList]
  have hnames : s.names ≠ [] := by
    obtain ⟨x, hx⟩ := List.exists_mem_of_ne_nil _ hne
    exact List.ne_nil_of_mem (mem_def.1 ((hmem x).2 hx))
  have hvalid : ∀ x ∈ s, validToken x = true := fun x hx => hv x ((hmem x).1 hx)
  have htokens : tokens s.toString = s.names := by
    rw [tokens, splitAll_toString hnames hvalid, List.filter_eq_self]
    exact fun x hx => (List.mem_filter.1 ((hmem x).1 hx)).2
  refine parse_eq_ok_iff.2 ?_
  rw [htokens]
  exact ⟨hnames, hvalid, (ofList_toList s).symm⟩

/-- Makes the request OpenID Connect: an ID token is issued. -/
def openid : String := "openid"

/-- UserInfo returns `name`. -/
def profile : String := "profile"

/-- UserInfo returns `email` and `email_verified`. -/
def email : String := "email"

/-- A refresh token is issued. -/
def offlineAccess : String := "offline_access"

end ScopeSet

/-! ### PKCE -/

namespace Pkce

/-- The only code challenge method accepted. -/
def s256 : String := "S256"

def s256ChallengeLen : ℕ := 43

def verifierMinLen : ℕ := 43

def verifierMaxLen : ℕ := 128

def isAsciiAlphanumeric (b : UInt8) : Bool :=
  (0x30 ≤ b.toNat && b.toNat ≤ 0x39) || (0x41 ≤ b.toNat && b.toNat ≤ 0x5A) ||
    (0x61 ≤ b.toNat && b.toNat ≤ 0x7A)

/-- A challenge that is well-formed for S256. -/
def isValidS256Challenge (challenge : String) : Bool :=
  (utf8 challenge).length == s256ChallengeLen &&
    (utf8 challenge).all fun b => isAsciiAlphanumeric b || b == 0x2D || b == 0x5F

/-- A byte of a verifier. -/
def isVerifierByte (b : UInt8) : Bool :=
  isAsciiAlphanumeric b || b == 0x2D || b == 0x2E || b == 0x5F || b == 0x7E

/-- A verifier with the length and alphabet of RFC 7636. -/
def isValidVerifier (verifier : String) : Bool :=
  (verifierMinLen ≤ (utf8 verifier).length && (utf8 verifier).length ≤ verifierMaxLen) &&
    (utf8 verifier).all isVerifierByte

/-- The S256 challenge of a verifier. -/
def s256Challenge (cr : Crates) (verifier : String) : String :=
  base64url (cr.sha256 (utf8 verifier)).toList

/-- The verifier is the pre-image of the stored challenge. -/
def verifyS256 (cr : Crates) (verifier challenge : String) : Bool :=
  isValidVerifier verifier && constantTimeEq (utf8 (s256Challenge cr verifier)) (utf8 challenge)

theorem verifyS256_iff (cr : Crates) (verifier challenge : String) :
    verifyS256 cr verifier challenge = true ↔
      isValidVerifier verifier = true ∧ s256Challenge cr verifier = challenge := by
  simp [verifyS256]

/-- The characters of RFC 7636: `ALPHA / DIGIT / "-" / "." / "_" / "~"` -/
def Unreserved (c : Char) : Prop := c.isAlphanum = true ∨ c ∈ ['-', '.', '_', '~']

instance (c : Char) : Decidable (Unreserved c) := inferInstanceAs (Decidable (_ ∨ _))

theorem isVerifierByte_iff : ∀ n < 128,
    isVerifierByte (UInt8.ofNat n) = true ↔ Unreserved (Char.ofNat n) := by
  decide

theorem isVerifierByte_lt {b : UInt8} (h : isVerifierByte b = true) : b.toNat < 128 := by
  simp only [isVerifierByte, isAsciiAlphanumeric, Bool.or_eq_true, Bool.and_eq_true, decide_eq_true_eq,
    beq_iff_eq] at h
  rcases h with (((h | rfl) | rfl) | rfl) | rfl
  · omega
  all_goals decide

theorem Unreserved.lt {c : Char} (h : Unreserved c) : c.toNat < 128 := by
  rcases h with h | h
  · simp only [Char.isAlphanum, Char.isAlpha, Char.isUpper, Char.isLower, Char.isDigit,
      Bool.or_eq_true, Bool.and_eq_true, decide_eq_true_eq, UInt32.le_iff_toNat_le, ge_iff_le] at h
    have : c.toNat = c.val.toNat := rfl
    simp at h
    omega
  · simp only [List.mem_cons, List.not_mem_nil, or_false] at h
    rcases h with rfl | rfl | rfl | rfl <;> decide

/-- **The verifiers of RFC 7636.** -/
theorem isValidVerifier_iff (verifier : String) : isValidVerifier verifier = true ↔
    43 ≤ verifier.toList.length ∧ verifier.toList.length ≤ 128 ∧
      ∀ c ∈ verifier.toList, Unreserved c := by
  have hascii (h : ∀ c ∈ verifier.toList, c.toNat < 128) :
      (utf8 verifier).length = verifier.toList.length ∧
        ((utf8 verifier).all isVerifierByte = true ↔ ∀ c ∈ verifier.toList, Unreserved c) := by
    rw [utf8_of_ascii h, List.length_map, List.all_map, List.all_eq_true]
    refine ⟨rfl, forall₂_congr fun c hc => ?_⟩
    rw [Function.comp_apply, isVerifierByte_iff _ (h c hc), Char.ofNat_toNat]
  have hdef : isValidVerifier verifier = true ↔
      (43 ≤ (utf8 verifier).length ∧ (utf8 verifier).length ≤ 128) ∧
        (utf8 verifier).all isVerifierByte = true := by
    rw [isValidVerifier, Bool.and_eq_true, Bool.and_eq_true, decide_eq_true_eq, decide_eq_true_eq]
    rfl
  rw [hdef, and_assoc]
  constructor
  · rintro ⟨hmin, hmax, hall⟩
    have hlt := ascii_of_utf8 fun b hb => isVerifierByte_lt (List.all_eq_true.1 hall b hb)
    obtain ⟨hlength, hiff⟩ := hascii hlt
    rw [hlength] at hmin hmax
    exact ⟨hmin, hmax, hiff.1 hall⟩
  · rintro ⟨hmin, hmax, hall⟩
    obtain ⟨hlength, hiff⟩ := hascii fun c hc => (hall c hc).lt
    rw [hlength]
    exact ⟨hmin, hmax, hiff.2 hall⟩

end Pkce

end SharpOauth
