import SharpOauth.AuthorizationDecision

/-! # The two ends of PKCE

The authorization endpoint checks the form of a challenge, the token endpoint compares it with the
digest of a verifier.  The challenge of a verifier has the right form (`s256Challenge_valid`):
base64url spends 43 digits on 32 bytes.  The last digit has two bits to spare, which the encoding
leaves zero (`base64Chars_last`), so a challenge that sets them passes the first check and fails
the second for every verifier. -/

namespace SharpOauth

/-! ### Digits -/

/-- The value of a digit of the URL-safe alphabet. -/
def base64UrlValue (c : Char) : ℕ := (base64Alphabet true).idxOf c

theorem base64UrlValue_digit {n : ℕ} (hn : n < 64) : base64UrlValue (base64Digit true n) = n := by
  have hlen : (base64Alphabet true).length = 64 := by decide
  rw [base64UrlValue, base64Digit, List.getD_eq_getElem _ _ (by omega)]
  exact base64Alphabet_nodup.idxOf_getElem n (by omega)

/-- With two bytes at the end, the last digit leaves two bits unused, and they are zero. -/
theorem base64Chars_last (x : List UInt8) (h : x.length % 3 = 2) :
    ∀ c ∈ (base64Chars x).getLast?, base64UrlValue c % 4 = 0 := by
  induction x using base64Chars.induct with
  | case1 => cases h
  | case2 a => cases h
  | case3 a b =>
      intro c hc
      obtain rfl : base64Digit true (b.toNat % 16 * 4) = c := Option.some.inj hc
      rw [base64UrlValue_digit (by omega)]
      omega
  | case4 a b c rest ih =>
      have hrest : rest.length % 3 = 2 := by
        simp only [List.length_cons] at h
        omega
      have hne : base64Chars rest ≠ [] := by
        intro hnil
        have hlen := base64Chars_length rest
        rw [hnil, List.length_nil] at hlen
        omega
      rw [base64Chars, List.getLast?_append_of_ne_nil _ hne]
      exact ih hrest

namespace Pkce

variable (cr : Crates)

/-- A digit passes the check of the authorization endpoint. -/
theorem challenge_digit : ∀ c ∈ base64Alphabet true, c.toNat < 128 ∧
    (isAsciiAlphanumeric (UInt8.ofNat c.toNat) || UInt8.ofNat c.toNat == 0x2D ||
      UInt8.ofNat c.toNat == 0x5F) = true := by
  have hall : (base64Alphabet true).all (fun c => decide (c.toNat < 128) &&
      (isAsciiAlphanumeric (UInt8.ofNat c.toNat) || UInt8.ofNat c.toNat == 0x2D ||
        UInt8.ofNat c.toNat == 0x5F)) = true := by
    decide
  intro c hc
  have hdigit := List.all_eq_true.1 hall c hc
  rwa [Bool.and_eq_true, decide_eq_true_eq] at hdigit

/-- **The challenge of a verifier has the form that the authorization endpoint asks for.** -/
theorem s256Challenge_valid (verifier : String) :
    isValidS256Challenge (s256Challenge cr verifier) = true := by
  have hdigit : ∀ c ∈ (s256Challenge cr verifier).toList, c ∈ base64Alphabet true := by
    intro c hc
    rw [s256Challenge, base64url, String.toList_ofList] at hc
    exact mem_base64Chars _ hc
  have hbytes := utf8_of_ascii fun c hc => (challenge_digit c (hdigit c hc)).1
  have hlength : (s256Challenge cr verifier).toList.length = 43 := by
    rw [s256Challenge, base64url, String.toList_ofList, base64Chars_length, Vector.length_toList]
  rw [isValidS256Challenge, hbytes, List.length_map, hlength, Bool.and_eq_true]
  refine ⟨rfl, List.all_eq_true.2 fun b hb => ?_⟩
  obtain ⟨c, hc, rfl⟩ := List.mem_map.1 hb
  exact (challenge_digit c (hdigit c hc)).2

/-- A challenge whose last digit uses the spare bits belongs to no verifier. -/
theorem verifyS256_spare_bits {challenge : String} {c : Char}
    (hlast : c ∈ challenge.toList.getLast?) (hbits : base64UrlValue c % 4 ≠ 0) (verifier : String) :
    verifyS256 cr verifier challenge = false := by
  by_contra hverified
  obtain ⟨-, heq⟩ := (verifyS256_iff cr verifier challenge).1 (by simpa using hverified)
  rw [← heq, s256Challenge, base64url, String.toList_ofList] at hlast
  have hlength : (cr.sha256 (utf8 verifier)).toList.length % 3 = 2 := by
    rw [Vector.length_toList]
  exact hbits (base64Chars_last _ hlength c hlast)

end Pkce

namespace Authorization

/-- A well-formed challenge may stand in the place of the one of a valid request. -/
theorem checkRequest_withChallenge {client : OAuthClient} {uri challenge : String}
    {r : AuthorizationRequest} {v : ValidatedRequest} (h : checkRequest client uri r = .ok v)
    (hchallenge : Pkce.isValidS256Challenge challenge = true) :
    checkRequest client uri { r with codeChallenge := some challenge } =
      .ok { v with codeChallenge := challenge } := by
  simp only [checkRequest, Check.bind_eq_ok, Check.that_eq_ok, Check.value_eq_ok, mapError_eq_ok]
    at h ⊢
  obtain ⟨_, hobject, _, huri, _, htype, _, hmode, state, hstate, _, hlength, raw, hraw, scope, hscope,
    _, hsub, _, _, _, hmethod, _, _, _, hnonce, prompt, hprompt, maxAge, hmaxAge, h⟩ := h
  cases h
  exact ⟨(), hobject, (), huri, (), htype, (), hmode, state, hstate, (), hlength, raw, hraw, scope,
    hscope, (), hsub, challenge, rfl, (), hmethod, (), hchallenge, (), hnonce, prompt, hprompt, maxAge,
    hmaxAge, rfl⟩

theorem Validated.withChallenge {db : Db} {r : AuthorizationRequest} {v : ValidatedRequest}
    (hv : Validated db r v) {challenge : String}
    (hchallenge : Pkce.isValidS256Challenge challenge = true) :
    Validated db { r with codeChallenge := some challenge } { v with codeChallenge := challenge } where
  redirectable := ⟨hv.redirectable.found, hv.redirectable.active, hv.redirectable.redirectUri,
    hv.redirectable.registered⟩
  checked := checkRequest_withChallenge hv.checked hchallenge

end Authorization

open Authorization

/-- The check of the challenge and the check of the verifier belong together. -/
structure Pkce.Agrees (cr : Crates) : Prop where
  /-- The authorization endpoint takes the challenge of every verifier. -/
  challenge : ∀ verifier, isValidVerifier verifier = true →
    isValidS256Challenge (s256Challenge cr verifier) = true
  accepted : ∀ verifier, isValidVerifier verifier = true → ∀ (db : Db) (r : AuthorizationRequest)
    (v : ValidatedRequest), (validate r).serve [] db = (.ok v, db) →
      (validate { r with codeChallenge := some (s256Challenge cr verifier) }).serve [] db =
        (.ok { v with codeChallenge := s256Challenge cr verifier }, db)
  /-- The token endpoint takes the verifier. -/
  verified : ∀ verifier, isValidVerifier verifier = true →
    verifyS256 cr verifier (s256Challenge cr verifier) = true
  /-- And no other string. -/
  preimage : ∀ challenge, isValidS256Challenge challenge = true → ∀ verifier,
    (verifyS256 cr verifier challenge = true ↔
      isValidVerifier verifier = true ∧
        challenge = base64url (cr.sha256 (utf8 verifier)).toList)
  spare : ∀ challenge, isValidS256Challenge challenge = true →
    ∀ c ∈ challenge.toList.getLast?, base64UrlValue c % 4 ≠ 0 →
      ∀ verifier, verifyS256 cr verifier challenge = false

/-- **PKCE works for every conforming client, and admits only preimages.** -/
theorem pkce_agrees (cr : Crates) : Pkce.Agrees cr where
  challenge verifier _ := Pkce.s256Challenge_valid cr verifier
  accepted verifier _ db r v hv := by
    have hvalid := (validated_of_serve (congrArg Prod.fst hv)).withChallenge
      (Pkce.s256Challenge_valid cr verifier)
    exact validate_serve hvalid
  verified verifier hverifier := (Pkce.verifyS256_iff cr _ _).2 ⟨hverifier, rfl⟩
  preimage challenge _ verifier := by
    rw [Pkce.verifyS256_iff]
    exact and_congr_right fun _ => eq_comm
  spare challenge _ c hlast hbits := Pkce.verifyS256_spare_bits cr hlast hbits

end SharpOauth
