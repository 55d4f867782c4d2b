import SharpOauth.FormRoundTrip
import SharpOauth.Shared

/-! # The text of a UUID

The `sub` claim of a token is the hyphenated form of a user's id (`Uuid.toString`), and the UserInfo
endpoint reads it back (`Uuid.parseStr`).  The parser takes 32 digits, the hyphenated form, and the
hyphenated form in braces or as a URN, in either case of the digits.

What is printed is read back (`Uuid.parseStr_toString`), so two users never share a `sub`. -/

namespace SharpOauth

/-! ### Reading -/

/-- The number with these hexadecimal digits. -/
def readHex (bytes : List UInt8) : Option ℕ :=
  bytes.foldlM (fun n b => (hexValue b).map fun v => 16 * n + v) 0

namespace Uuid

/-- 32 digits. -/
def parseSimple (bytes : List UInt8) : Option Uuid := (readHex bytes).map fun n => ⟨BitVec.ofNat 128 n⟩

/-- 32 digits in five groups with hyphens between them. -/
def parseHyphenated (bytes : List UInt8) : Option Uuid :=
  if [8, 13, 18, 23].all fun i => bytes[i]? = some 0x2D then
    parseSimple (bytes.take 8 ++ (bytes.drop 9).take 4 ++ (bytes.drop 14).take 4 ++
      (bytes.drop 19).take 4 ++ bytes.drop 24)
  else none

/-- `Uuid::parse_str` -/
def parseStr (s : String) : Option Uuid :=
  let bytes := utf8 s
  if bytes.length = 32 then parseSimple bytes
  else if bytes.length = 36 then parseHyphenated bytes
  else if bytes.length = 38 ∧ bytes.head? = some 0x7B ∧ bytes.getLast? = some 0x7D then
    parseHyphenated (bytes.tail.take 36)
  else if bytes.length = 45 ∧ bytes.take 9 = utf8 "urn:uuid:" then parseHyphenated (bytes.drop 9)
  else none

end Uuid

/-! ### Digits -/

theorem readHex_concat {bytes : List UInt8} {b : UInt8} {n v : ℕ} (h : readHex bytes = some n)
    (hb : hexValue b = some v) : readHex (bytes ++ [b]) = some (16 * n + v) := by
  unfold readHex at h ⊢
  rw [List.foldlM_append, h]
  simp [hb]

/-- A lower-case hexadecimal digit. -/
def lowerDigit (n : ℕ) : Char := "0123456789abcdef".toList.getD n '0'

theorem hexValue_lowerDigit : ∀ n < 16, hexValue (UInt8.ofNat (lowerDigit n).toNat) = some n := by
  decide

theorem lowerDigit_lt : ∀ n < 16, (lowerDigit n).toNat < 128 := by
  decide

theorem hexDigits_succ (n v : ℕ) :
    hexDigits (n + 1) v = hexDigits n (v / 16) ++ [lowerDigit (v % 16)] := rfl

theorem length_hexDigits (n v : ℕ) : (hexDigits n v).length = n := by
  induction n generalizing v with
  | zero => rfl
  | succ n ih => simp [hexDigits_succ, ih]

theorem hexDigits_lt (n v : ℕ) : ∀ c ∈ hexDigits n v, c.toNat < 128 := by
  induction n generalizing v with
  | zero => exact fun c hc => absurd hc List.not_mem_nil
  | succ n ih =>
      intro c hc
      rw [hexDigits_succ] at hc
      rcases List.mem_append.1 hc with hc | hc
      · exact ih (v / 16) c hc
      · rw [List.mem_singleton.1 hc]
        exact lowerDigit_lt _ (by omega)

/-- The digits are read back. -/
theorem readHex_hexDigits (n v : ℕ) : readHex (asciiBytes (hexDigits n v)) = some (v % 16 ^ n) := by
  induction n generalizing v with
  | zero => simp [hexDigits, asciiBytes, readHex, Nat.mod_one]
  | succ n ih =>
      have hdigit := hexValue_lowerDigit (v % 16) (by omega)
      rw [hexDigits_succ, asciiBytes_append]
      refine (readHex_concat (ih (v / 16)) hdigit).trans ?_
      rw [pow_succ', Nat.mod_mul]
      congr 1
      omega

/-! ### The hyphenated form -/

namespace Uuid

theorem parseSimple_hexDigits (u : Uuid) :
    parseSimple (asciiBytes (hexDigits 32 u.val.toNat)) = some u := by
  have hlt : u.val.toNat % 16 ^ 32 = u.val.toNat := Nat.mod_eq_of_lt (by
    have := u.val.isLt
    norm_num at this ⊢
    exact this)
  unfold parseSimple
  rw [readHex_hexDigits, hlt]
  simp

/-- The hyphens are where the parser looks for them, and the digits around them. -/
theorem parseHyphenated_groups {a b c d e : List UInt8} (ha : a.length = 8) (hb : b.length = 4)
    (hc : c.length = 4) (hd : d.length = 4) :
    parseHyphenated (a ++ 0x2D :: (b ++ 0x2D :: (c ++ 0x2D :: (d ++ 0x2D :: e)))) =
      parseSimple (a ++ b ++ c ++ d ++ e) := by
  have hhyphens : ([8, 13, 18, 23].all fun i =>
      (a ++ 0x2D :: (b ++ 0x2D :: (c ++ 0x2D :: (d ++ 0x2D :: e))))[i]? = some 0x2D) = true := by
    simp [List.getElem?_append, ha, hb, hc, hd]
  unfold parseHyphenated
  rw [if_pos hhyphens]
  congr 1
  have hdrop {l : List UInt8} {k n : ℕ} (hl : l.length = k) (hk : k ≤ n) : l.drop n = [] :=
    List.drop_eq_nil_of_le (hl ▸ hk)
  simp [List.drop_append, ha, hb, hc, hd, hdrop ha, hdrop hb, hdrop hc, hdrop hd]

/-- The groups of the hyphenated form. -/
theorem groups_eq (l : List Char) : l = l.take 8 ++ (l.drop 8).take 4 ++ (l.drop 12).take 4 ++
    (l.drop 16).take 4 ++ l.drop 20 := by
  have hcut (n : ℕ) : l.drop n = (l.drop n).take 4 ++ l.drop (n + 4) := by
    rw [← List.drop_drop, List.take_append_drop]
  calc l = l.take 8 ++ l.drop 8 := (List.take_append_drop 8 l).symm
    _ = l.take 8 ++ ((l.drop 8).take 4 ++ ((l.drop 12).take 4 ++ ((l.drop 16).take 4 ++ l.drop 20))) := by
        rw [← hcut 16, ← hcut 12, ← hcut 8]
    _ = _ := by simp only [List.append_assoc]

/-- **What is printed is read back.** -/
theorem parseStr_toString (u : Uuid) : parseStr u.toString = some u := by
  have hdigits := groups_eq (hexDigits 32 u.val.toNat)
  have hlength := length_hexDigits 32 u.val.toNat
  have hlt := hexDigits_lt 32 u.val.toNat
  have hparse := parseSimple_hexDigits u
  have htext : u.toString = String.ofList ((hexDigits 32 u.val.toNat).take 8 ++
      '-' :: ((hexDigits 32 u.val.toNat).drop 8).take 4 ++
      '-' :: ((hexDigits 32 u.val.toNat).drop 12).take 4 ++
      '-' :: ((hexDigits 32 u.val.toNat).drop 16).take 4 ++
      '-' :: (hexDigits 32 u.val.toNat).drop 20) := rfl
  generalize hexDigits 32 u.val.toNat = l at hdigits hlength hlt hparse htext
  have hascii : ∀ x ∈ u.toString.toList, x.toNat < 128 := by
    rw [htext, String.toList_ofList]
    intro x hx
    by_cases hhyphen : x = '-'
    · rw [hhyphen]
      decide
    · refine hlt x ?_
      rw [hdigits]
      simp only [List.mem_append, List.mem_cons, hhyphen, false_or] at hx ⊢
      exact hx
  have hbytes : utf8 u.toString = asciiBytes (l.take 8) ++ 0x2D :: (asciiBytes ((l.drop 8).take 4) ++
      0x2D :: (asciiBytes ((l.drop 12).take 4) ++ 0x2D :: (asciiBytes ((l.drop 16).take 4) ++
        0x2D :: asciiBytes (l.drop 20)))) := by
    rw [utf8_of_ascii hascii, htext, String.toList_ofList]
    simp [asciiBytes]
  have hbyteLength : (utf8 u.toString).length = 36 := by
    rw [hbytes]
    simp [asciiBytes, hlength]
  unfold parseStr
  simp only [hbyteLength]
  rw [hbytes]
  refine (parseHyphenated_groups (by simp [asciiBytes, hlength]) (by simp [asciiBytes, hlength])
    (by simp [asciiBytes, hlength]) (by simp [asciiBytes, hlength])).trans ?_
  rw [← asciiBytes_append, ← asciiBytes_append, ← asciiBytes_append, ← asciiBytes_append, ← hdigits]
  exact hparse

/-- Two UUIDs have two texts. -/
theorem toString_inj {u v : Uuid} (h : u.toString = v.toString) : u = v :=
  Option.some.inj ((parseStr_toString u).symm.trans ((congrArg parseStr h).trans (parseStr_toString v)))

end Uuid

end SharpOauth
