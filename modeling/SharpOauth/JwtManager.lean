import SharpOauth.Token

/-! # Signing keys

The keys of the server, read from `(kid, PEM)` pairs.  A token is signed with the active key and
names it in its header; a verifier looks the key up by that name.

The `jsonwebtoken` crate is a parameter (`Jsonwebtoken`), and what the server relies on is written
down in `Jsonwebtoken.Documented`.

* A key set does not depend on the order of the pairs (`fromPems_perm`).
* A key is found under its name, and is the only one published under it (`find_key`, `jwks_key`).
* The active key exists, so that signing never panics (`active_key`). -/

namespace SharpOauth

/-! ### The jsonwebtoken crate -/

/-- A JWT algorithm. -/
inductive Algorithm where
  | hs256
  | hs384
  | hs512
  | es256
  | es384
  | rs256
  | rs384
  | rs512
  | ps256
  | ps384
  | ps512
  | edDSA
deriving DecidableEq, Repr

inductive PublicKeyUse where
  | signature
  | encryption
deriving DecidableEq, Repr

/-- The header of a JWT. -/
structure Header where
  alg : Algorithm
  typ : Option String
  kid : Option String
deriving DecidableEq, Repr

def Header.new (alg : Algorithm) : Header := ⟨alg, some "JWT", none⟩

/-- The public half of an RSA key. -/
structure RsaKeyParameters where
  n : String
  e : String
deriving DecidableEq, Repr

/-- A JSON Web Key. -/
structure Jwk where
  publicKeyUse : Option PublicKeyUse
  keyAlgorithm : Option Algorithm
  keyId : Option String
  algorithm : RsaKeyParameters
deriving DecidableEq, Repr

/-- The only algorithm the server signs with and accepts. -/
def jwtAlgorithm : Algorithm := .rs256

/-- What a JWT is checked for. -/
structure Validation where
  requiredSpecClaims : List String
  /-- How long after its expiry a token is accepted, in seconds. -/
  leeway : ℕ
  aud : Option (List String)
  iss : Option (List String)
  algorithms : List Algorithm
deriving DecidableEq, Repr

def Validation.new (alg : Algorithm) : Validation := ⟨["exp"], 60, none, none, [alg]⟩

/-- The payload of a JWT. -/
abbrev Payload : Type := List (String × ClaimValue)

/-- A registered claim is present, and of its type. -/
def Payload.parses (payload : Payload) (name : String) : Bool :=
  match payload.lookup name with
  | some (.int n) => (name = "exp" || name = "nbf") && 0 ≤ n
  | some (.str _) => name = "iss" || name = "aud" || name = "sub"
  | none => false

/-- The registered claims pass the validation. -/
def Validation.accepts (v : Validation) (now : Instant) (payload : Payload) : Bool :=
  v.requiredSpecClaims.all payload.parses &&
    (match payload.lookup "exp" with
      | some (.int exp) => timestamp now - v.leeway ≤ exp
      | _ => true) &&
    (match payload.lookup "iss", v.iss with
      | some (.str iss), some issuers => iss ∈ issuers
      | _, _ => true) &&
    (match payload.lookup "aud", v.aud with
      | some (.str aud), some audience => aud ∈ audience
      | some (.str _), none => false
      | _, _ => true)

/-- The server asks for one algorithm, and requires claims that the crate knows. -/
structure Validation.Known (v : Validation) : Prop where
  algorithms : v.algorithms = [jwtAlgorithm]
  required : ∀ name ∈ v.requiredSpecClaims, name ∈ ["exp", "iss", "aud", "sub"]

/-- What the server uses of the crate. -/
structure Jsonwebtoken where
  EncodingKey : Type
  DecodingKey : Type
  /-- `EncodingKey::from_rsa_pem` -/
  fromRsaPem : List UInt8 → Option EncodingKey
  /-- `Jwk::from_encoding_key` -/
  jwkFromEncodingKey : EncodingKey → Algorithm → Option Jwk
  /-- `DecodingKey::from_jwk` -/
  decodingKeyFromJwk : Jwk → Option DecodingKey
  encode : Header → Payload → EncodingKey → Except String String
  decodeHeader : String → Except String Header
  /-- `decode`, at a time of the clock. -/
  decode : Instant → String → DecodingKey → Validation → Except String Payload

namespace Jsonwebtoken

/-- The decoding key is the public half of the encoding key. -/
def Matches (jwt : Jsonwebtoken) (encoding : jwt.EncodingKey) (decoding : jwt.DecodingKey) : Prop :=
  ∃ alg jwk jwk', jwt.jwkFromEncodingKey encoding alg = some jwk ∧ jwk'.algorithm = jwk.algorithm ∧
    jwt.decodingKeyFromJwk jwk' = some decoding

/-- What the crate promises, for payloads in which no claim is written twice. -/
structure Documented (jwt : Jsonwebtoken) : Prop where
  /-- The header of a token is the one it was made with. -/
  decodeHeader_encode : ∀ {header payload encoding token},
    jwt.encode header payload encoding = .ok token → jwt.decodeHeader token = .ok header
  /-- `decode` inverts `encode` for the matching key. -/
  decode_encode : ∀ {header encoding token decoding now} {payload : Payload} {v : Validation},
    jwt.encode header payload encoding = .ok token → (payload.map Prod.fst).Nodup →
    jwt.Matches encoding decoding → v.Known → header.alg ∈ v.algorithms →
    v.accepts now payload = true → jwt.decode now token decoding v = .ok payload
  /-- Every other algorithm, and every token that fails the validation, is rejected. -/
  decode_invalid : ∀ {header encoding token decoding now} {payload : Payload} {v : Validation},
    jwt.encode header payload encoding = .ok token → (payload.map Prod.fst).Nodup → v.Known →
    header.alg ∉ v.algorithms ∨ v.accepts now payload = false →
    ∃ e, jwt.decode now token decoding v = .error e

end Jsonwebtoken

/-! ### Key sets -/

/-- One RSA key pair. -/
structure SigningKey (jwt : Jsonwebtoken) where
  kid : String
  encoding : jwt.EncodingKey
  decoding : jwt.DecodingKey
  /-- The public half, as published at the JWKS endpoint. -/
  publicJwk : Jwk

/-- All loaded keys, and which one signs new tokens. -/
structure SigningKeys (jwt : Jsonwebtoken) where
  keys : List (SigningKey jwt)
  active : ℕ

/-- Why a key set could not be built. -/
inductive KeyError where
  | invalidKid (kid : String)
  | notAnRsaKey (kid : String)
  | noPublicKey (kid : String)
  | noVerificationKey (kid : String)
  /-- `SIGNING_ACTIVE_KID` does not match any loaded key. -/
  | unknownActiveKid (wanted : String)
  | noKeys
deriving DecidableEq, Repr

/-- Why a JWT was rejected. -/
inductive VerifyError where
  | unknownKey
  | wrongType
  | invalid (err : String)
deriving DecidableEq, Repr

namespace SigningKeys

variable {jwt : Jsonwebtoken}

/-- Letters, digits, `-`, `_` and `.`. -/
def validKid (kid : String) : Bool :=
  kid ≠ "" && kid.toList.all fun c => c.isAlphanum || "-_.".toList.contains c

/-- One pair of a name and a PEM file. -/
def loadKey (jwt : Jsonwebtoken) (pair : String × List UInt8) : Except KeyError (SigningKey jwt) :=
  let kid := pair.1
  if !validKid kid then .error (.invalidKid kid)
  else
    match jwt.fromRsaPem pair.2 with
    | none => .error (.notAnRsaKey kid)
    | some encoding =>
        match jwt.jwkFromEncodingKey encoding jwtAlgorithm with
        | none => .error (.noPublicKey kid)
        | some jwk =>
            let publicJwk := { jwk with keyId := some kid, publicKeyUse := some .signature }
            match jwt.decodingKeyFromJwk publicJwk with
            | none => .error (.noVerificationKey kid)
            | some decoding => .ok { kid, encoding, decoding, publicJwk }

/-- The pairs in the order of their names. -/
def sortPems (pems : List (String × List UInt8)) : List (String × List UInt8) :=
  pems.mergeSort fun a b => a.1 ≤ b.1

/-- The position of the key that signs. -/
def findActive (keys : List (SigningKey jwt)) : Option String → Except KeyError ℕ
  | some wanted =>
      match keys.findIdx? fun key => key.kid = wanted with
      | some i => .ok i
      | none => .error (.unknownActiveKid wanted)
  | none => if keys.length = 0 then .error .noKeys else .ok (keys.length - 1)

/-- Build the key set from `(kid, PEM bytes)` pairs; without `activeKid` the greatest name signs. -/
def fromPems (jwt : Jsonwebtoken) (pems : List (String × List UInt8)) (activeKid : Option String) :
    Except KeyError (SigningKeys jwt) := do
  let keys ← (sortPems pems).mapM (loadKey jwt)
  let active ← findActive keys activeKid
  return { keys, active }

/-- The name of the key that signs new tokens; `none` is a panic. -/
def activeKid (ks : SigningKeys jwt) : Option String := ks.keys[ks.active]?.map SigningKey.kid

/-- Sign the claims with the active key; `none` is a panic. -/
def sign (ks : SigningKeys jwt) (typ : String) (claims : Payload) : Option (Except String String) :=
  ks.keys[ks.active]?.map fun key =>
    jwt.encode { Header.new jwtAlgorithm with typ := some typ, kid := some key.kid } claims key.encoding

/-- Verify a JWT's signature, header type and registered claims. -/
def verify (ks : SigningKeys jwt) (now : Instant) (token expectedTyp : String)
    (validation : Validation) : Except VerifyError Payload :=
  match jwt.decodeHeader token with
  | .error e => .error (.invalid e)
  | .ok header =>
      if !(header.typ.any fun typ => asciiLower typ == asciiLower expectedTyp) then .error .wrongType
      else
        match header.kid with
        | none => .error .unknownKey
        | some kid =>
            match ks.keys.find? fun key => key.kid = kid with
            | none => .error .unknownKey
            | some key =>
                (jwt.decode now token key.decoding { validation with algorithms := [jwtAlgorithm] }).mapError
                  .invalid

/-- The public keys, as served at the JWKS endpoint. -/
def jwks (ks : SigningKeys jwt) : List Jwk := ks.keys.map SigningKey.publicJwk

end SigningKeys

/-! ### Tokens -/

/-- The server with these keys.  The active index is in range, so the default is never taken. -/
def AppState.withKeys {jwt : Jsonwebtoken} (st : AppState) (ks : SigningKeys jwt) : AppState :=
  { st with sign := fun typ claims => (ks.sign typ claims).getD (.error "index out of bounds") }

namespace Access

/-- The claims in a payload; unknown ones are skipped. -/
def AccessTokenClaims.ofPayload (payload : Payload) : Option AccessTokenClaims := do
  let str (name : String) : Option String := match payload.lookup name with
    | some (.str s) => some s
    | _ => none
  let int (name : String) : Option ℤ := match payload.lookup name with
    | some (.int n) => some n
    | _ => none
  return {
    iss := ← str "iss"
    sub := ← str "sub"
    aud := ← str "aud"
    exp := ← int "exp"
    iat := ← int "iat"
    jti := ← str "jti"
    clientId := ← str "client_id"
    scope := ← str "scope"
    authTime := ← int "auth_time" }

/-- What an access token is checked for. -/
def validation (issuer : String) : Validation :=
  { Validation.new jwtAlgorithm with
    iss := some [issuer]
    aud := some [issuer]
    requiredSpecClaims := ["exp", "iss", "aud", "sub"]
    leeway := 0 }

/-- Verify an access token issued by this server. -/
def verify {jwt : Jsonwebtoken} (ks : SigningKeys jwt) (issuer token : String) (now : Instant) :
    Except VerifyError AccessTokenClaims :=
  match ks.verify now token jwtType (validation issuer) with
  | .error e => .error e
  | .ok payload =>
      match AccessTokenClaims.ofPayload payload with
      | some claims => .ok claims
      | none => .error (.invalid "malformed claims")

end Access

/-! ### What a key set holds -/

namespace SigningKeys

variable {jwt : Jsonwebtoken} {pems pems' : List (String × List UInt8)} {wanted : Option String}
  {ks : SigningKeys jwt} {kid : String} {pem : List UInt8} {key : SigningKey jwt}

/-- The keys that a loop collects. -/
theorem forall₂_of_mapM {α β ε : Type} {f : α → Except ε β} {l : List α} {r : List β}
    (h : l.mapM f = .ok r) : List.Forall₂ (fun x y => f x = .ok y) l r := by
  induction l generalizing r with
  | nil =>
      cases h
      exact .nil
  | cons x l ih =>
      rw [List.mapM_cons] at h
      cases hx : f x with
      | error e =>
          rw [hx] at h
          cases h
      | ok y =>
          rw [hx] at h
          cases hl : l.mapM f with
          | error e =>
              rw [hl] at h
              cases h
          | ok ys =>
              rw [hl] at h
              cases h
              exact .cons hx (ih hl)

/-- A loop over keys that all load. -/
theorem exists_mapM_ok {α β ε : Type} {f : α → Except ε β} {l : List α}
    (h : ∀ x ∈ l, ∃ y, f x = .ok y) : ∃ r, l.mapM f = .ok r := by
  induction l with
  | nil => exact ⟨[], rfl⟩
  | cons x l ih =>
      obtain ⟨y, hy⟩ := h x List.mem_cons_self
      obtain ⟨r, hr⟩ := ih fun z hz => h z (List.mem_cons_of_mem _ hz)
      refine ⟨y :: r, ?_⟩
      rw [List.mapM_cons, hy, hr]
      rfl

theorem sortPems_sorted (pems : List (String × List UInt8)) :
    (sortPems pems).Pairwise fun p q => p.1 ≤ q.1 := by
  have htrans (a b c : String × List UInt8) (hab : decide (a.1 ≤ b.1) = true)
      (hbc : decide (b.1 ≤ c.1) = true) : decide (a.1 ≤ c.1) = true := by
    simp only [decide_eq_true_eq] at hab hbc ⊢
    exact hab.trans hbc
  have htotal (a b : String × List UInt8) : (decide (a.1 ≤ b.1) || decide (b.1 ≤ a.1)) = true := by
    simpa using le_total a.1 b.1
  exact (List.pairwise_mergeSort htrans htotal pems).imp fun h => of_decide_eq_true h

/-- **The order of the pairs does not matter.** -/
theorem sortPems_perm (hperm : pems.Perm pems') (hnodup : (pems.map Prod.fst).Nodup) :
    sortPems pems = sortPems pems' := by
  have hsame : (sortPems pems).Perm (sortPems pems') :=
    (List.mergeSort_perm pems _).trans (hperm.trans (List.mergeSort_perm pems' _).symm)
  refine List.Perm.eq_of_pairwise (fun x y hx hy hxy hyx => ?_) (sortPems_sorted pems)
    (sortPems_sorted pems') hsame
  have hx : x ∈ pems := (List.mergeSort_perm pems _).mem_iff.1 hx
  have hy : y ∈ pems := hperm.mem_iff.2 ((List.mergeSort_perm pems' _).mem_iff.1 hy)
  exact List.inj_on_of_nodup_map hnodup hx hy (le_antisymm hxy hyx)

theorem fromPems_perm (hperm : pems.Perm pems') (hnodup : (pems.map Prod.fst).Nodup) :
    fromPems jwt pems wanted = fromPems jwt pems' wanted := by
  unfold fromPems
  rw [sortPems_perm hperm hnodup]

/-- The two parts of a key set that was built. -/
theorem fromPems_ok (h : fromPems jwt pems wanted = .ok ks) :
    List.Forall₂ (fun p k => loadKey jwt p = .ok k) (sortPems pems) ks.keys ∧
      findActive ks.keys wanted = .ok ks.active := by
  unfold fromPems at h
  cases hkeys : (sortPems pems).mapM (loadKey jwt) with
  | error e =>
      rw [hkeys] at h
      cases h
  | ok keys =>
      rw [hkeys] at h
      cases hactive : findActive keys wanted with
      | error e =>
          have herror : (Except.error e : Except KeyError (SigningKeys jwt)) = .ok ks := by
            rw [← h]
            show _ = (findActive keys wanted).bind _
            rw [hactive]
            rfl
          cases herror
      | ok active =>
          have hok : (Except.ok ⟨keys, active⟩ : Except KeyError (SigningKeys jwt)) = .ok ks := by
            rw [← h]
            show _ = (findActive keys wanted).bind _
            rw [hactive]
            rfl
          cases hok
          exact ⟨forall₂_of_mapM hkeys, hactive⟩

/-- A set is built if there are keys and all of them load. -/
theorem exists_fromPems (hload : ∀ p ∈ pems, ∃ key, loadKey jwt p = .ok key) (hne : pems ≠ []) :
    ∃ ks, fromPems jwt pems none = .ok ks := by
  obtain ⟨keys, hkeys⟩ := exists_mapM_ok fun p hp =>
    hload p ((List.mergeSort_perm pems fun a b => a.1 ≤ b.1).mem_iff.1 hp)
  have hlength : keys.length = pems.length := by
    rw [← (forall₂_of_mapM hkeys).length_eq, List.length_mergeSort]
  have hpos : keys.length ≠ 0 := by
    rw [hlength]
    simpa using hne
  refine ⟨⟨keys, keys.length - 1⟩, ?_⟩
  unfold fromPems sortPems
  rw [hkeys]
  show (findActive keys none).bind _ = _
  rw [findActive, if_neg hpos]
  rfl

/-- The active index is in range. -/
theorem findActive_lt {keys : List (SigningKey jwt)} {i : ℕ} (h : findActive keys wanted = .ok i) :
    i < keys.length := by
  unfold findActive at h
  cases wanted with
  | some wanted =>
      cases hfind : keys.findIdx? fun key => key.kid = wanted with
      | none =>
          simp [hfind] at h
      | some j =>
          simp only [hfind, Except.ok.injEq] at h
          subst h
          exact (List.findIdx?_eq_some_iff_getElem.1 hfind).1
  | none =>
      by_cases hlen : keys.length = 0
      · simp [hlen] at h
      · simp only [hlen, if_false, Except.ok.injEq] at h
        omega

/-- What a loaded key is made of. -/
structure Loads (jwt : Jsonwebtoken) (kid : String) (pem : List UInt8) (key : SigningKey jwt) : Prop where
  kid_eq : key.kid = kid
  valid : validKid kid = true
  encoding : jwt.fromRsaPem pem = some key.encoding
  publicJwk : ∃ jwk, jwt.jwkFromEncodingKey key.encoding jwtAlgorithm = some jwk ∧
    key.publicJwk = { jwk with keyId := some kid, publicKeyUse := some .signature }
  decoding : jwt.decodingKeyFromJwk key.publicJwk = some key.decoding

theorem loadKey_ok (h : loadKey jwt (kid, pem) = .ok key) : Loads jwt kid pem key := by
  unfold loadKey at h
  dsimp only at h
  by_cases hvalid : validKid kid = true
  · cases hencoding : jwt.fromRsaPem pem with
    | none => simp [hvalid, hencoding] at h
    | some encoding =>
        cases hjwk : jwt.jwkFromEncodingKey encoding jwtAlgorithm with
        | none => simp [hvalid, hencoding, hjwk] at h
        | some jwk =>
            cases hdecoding : jwt.decodingKeyFromJwk
                { jwk with keyId := some kid, publicKeyUse := some .signature } with
            | none => simp [hvalid, hencoding, hjwk, hdecoding] at h
            | some decoding =>
                simp only [hvalid, hencoding, hjwk, hdecoding, Bool.not_true, Bool.false_eq_true,
                  if_false, Except.ok.injEq] at h
                subst h
                exact ⟨rfl, hvalid, hencoding, ⟨jwk, hjwk, rfl⟩, hdecoding⟩
  · simp [hvalid] at h

theorem Loads.matches (h : Loads jwt kid pem key) : jwt.Matches key.encoding key.decoding := by
  obtain ⟨jwk, hjwk, hpublic⟩ := h.publicJwk
  exact ⟨jwtAlgorithm, jwk, key.publicJwk, hjwk, by rw [hpublic], h.decoding⟩

/-- The keys of a set are those of its pairs. -/
theorem mem_keys (h : fromPems jwt pems wanted = .ok ks) :
    key ∈ ks.keys ↔ ∃ p ∈ pems, loadKey jwt p = .ok key := by
  obtain ⟨hloaded, -⟩ := fromPems_ok h
  have hsort (p : String × List UInt8) : p ∈ sortPems pems ↔ p ∈ pems :=
    (List.mergeSort_perm pems _).mem_iff
  constructor
  · intro hkey
    obtain ⟨i, hi, rfl⟩ := List.getElem_of_mem hkey
    have hi' : i < (sortPems pems).length := hloaded.length_eq ▸ hi
    exact ⟨(sortPems pems)[i], (hsort _).1 (List.getElem_mem hi'), hloaded.get hi' hi⟩
  · rintro ⟨p, hp, hload⟩
    obtain ⟨i, hi, rfl⟩ := List.getElem_of_mem ((hsort p).2 hp)
    have hi' : i < ks.keys.length := hloaded.length_eq ▸ hi
    have hget : loadKey jwt (sortPems pems)[i] = .ok ks.keys[i] := hloaded.get hi hi'
    cases hload.symm.trans hget
    exact List.getElem_mem hi'

/-- The names of the keys are pairwise distinct. -/
theorem kids_nodup (h : fromPems jwt pems wanted = .ok ks) (hnodup : (pems.map Prod.fst).Nodup) :
    (ks.keys.map SigningKey.kid).Nodup := by
  obtain ⟨hloaded, -⟩ := fromPems_ok h
  have hkids : ∀ {l : List (String × List UInt8)} {keys : List (SigningKey jwt)},
      List.Forall₂ (fun p k => loadKey jwt p = .ok k) l keys →
        keys.map SigningKey.kid = l.map Prod.fst := by
    intro l keys hl
    induction hl with
    | nil => rfl
    | cons hx _ ih => rw [List.map_cons, List.map_cons, ih, (loadKey_ok hx).kid_eq]
  rw [hkids hloaded]
  exact ((List.mergeSort_perm pems _).map Prod.fst).nodup_iff.2 hnodup

/-- **A key is found under its name.** -/
theorem find_key (h : fromPems jwt pems wanted = .ok ks) (hnodup : (pems.map Prod.fst).Nodup)
    (hmem : (kid, pem) ∈ pems) (hload : loadKey jwt (kid, pem) = .ok key) :
    ks.keys.find? (fun key => key.kid = kid) = some key := by
  have hkid := (loadKey_ok hload).kid_eq
  have hkey : key ∈ ks.keys := (mem_keys h).2 ⟨_, hmem, hload⟩
  refine find_only hkey (by simp [hkid]) fun found hmem hfound => ?_
  rw [decide_eq_true_eq] at hfound
  exact List.inj_on_of_nodup_map (kids_nodup h hnodup) hmem hkey (hfound.trans hkid.symm)

/-- Exactly one published key has the name. -/
theorem jwks_key (h : fromPems jwt pems wanted = .ok ks) (hnodup : (pems.map Prod.fst).Nodup)
    (hmem : (kid, pem) ∈ pems) (hload : loadKey jwt (kid, pem) = .ok key) :
    ks.jwks.filter (fun jwk => jwk.keyId = some kid) = [key.publicJwk] := by
  have hkid := (loadKey_ok hload).kid_eq
  have hkey : key ∈ ks.keys := (mem_keys h).2 ⟨_, hmem, hload⟩
  have hids : ∀ k ∈ ks.keys, k.publicJwk.keyId = some k.kid := by
    intro k hk
    obtain ⟨⟨kid', pem'⟩, -, hload'⟩ := (mem_keys h).1 hk
    obtain ⟨jwk, -, hpublic⟩ := (loadKey_ok hload').publicJwk
    rw [hpublic, (loadKey_ok hload').kid_eq]
  have hfilter : ks.keys.filter (fun k => k.publicJwk.keyId = some kid) = [key] := by
    have hsame : ks.keys.filter (fun k => k.publicJwk.keyId = some kid) =
        ks.keys.filter fun k => k.kid = kid := by
      refine List.filter_congr fun k hk => ?_
      rw [hids k hk]
      simp
    rw [hsame]
    have hnd := kids_nodup h hnodup
    revert hkey hnd
    generalize ks.keys = keys
    intro hkey hnd
    induction keys with
    | nil => exact absurd hkey List.not_mem_nil
    | cons k keys ih =>
        rw [List.map_cons, List.nodup_cons] at hnd
        rcases List.mem_cons.1 hkey with rfl | hkey
        · have hrest : keys.filter (fun k => k.kid = kid) = [] := by
            refine List.filter_eq_nil_iff.2 fun k' hk' => ?_
            have hne : k'.kid ≠ kid := by
              rw [← hkid]
              exact fun heq => hnd.1 (heq ▸ List.mem_map_of_mem hk')
            simp [hne]
          simp [hkid, hrest]
        · have hne : k.kid ≠ kid := by
            rw [← hkid]
            exact fun heq => hnd.1 (heq ▸ List.mem_map_of_mem hkey)
          simp [hne, ih hkey hnd.2]
  unfold jwks
  rw [List.filter_map]
  show (ks.keys.filter fun k => k.publicJwk.keyId = some kid).map _ = _
  rw [hfilter]
  rfl

/-- **Signing never panics**: the active key exists. -/
theorem active_key (h : fromPems jwt pems wanted = .ok ks) :
    ∃ key ∈ ks.keys, ks.keys[ks.active]? = some key := by
  have hlt := findActive_lt (fromPems_ok h).2
  exact ⟨ks.keys[ks.active], List.getElem_mem hlt, List.getElem?_eq_getElem hlt⟩

end SigningKeys

end SharpOauth
