import Mathlib

/-! # Texts and their encodings

The encodings that carry secrets and parameters over HTTP, on bytes and characters:

* **base64** (RFC 4648): the URL-safe alphabet without padding, which is injective
  (`base64url_inj`), and decoding of the standard alphabet with canonical padding;
* **UTF-8** decoding as a left-to-right scan that reports every maximal malformed part;
* **`application/x-www-form-urlencoded`**: serializing and parsing of name/value pairs;
* splitting at separators and trimming. -/

namespace SharpOauth

/-! ### Splitting and trimming -/

/-- The parts of a text before and after the first `sep`, if there is one. -/
def splitOnce (sep : Char) (s : String) : Option (String × String) :=
  match s.toList.span (· != sep) with
  | (_, []) => none
  | (a, _ :: b) => some (String.ofList a, String.ofList b)

/-- The parts of a text between the occurrences of `sep`. -/
def splitAll (sep : Char) (s : String) : List String :=
  (s.toList.splitOn sep).map String.ofList

/-- The Unicode property `White_Space`. -/
def isWhitespace (c : Char) : Bool :=
  let n := c.toNat
  (0x09 ≤ n && n ≤ 0x0D) || n == 0x20 || n == 0x85 || n == 0xA0 || n == 0x1680 ||
    (0x2000 ≤ n && n ≤ 0x200A) || n == 0x2028 || n == 0x2029 || n == 0x202F || n == 0x205F ||
    n == 0x3000

/-- The Unicode general category `Cc`. -/
def isControl (c : Char) : Bool :=
  let n := c.toNat
  n ≤ 0x1F || (0x7F ≤ n && n ≤ 0x9F)

/-- A text without the whitespace at its ends. -/
def trim (s : String) : String :=
  String.ofList (((s.toList.dropWhile isWhitespace).reverse.dropWhile isWhitespace).reverse)

/-- A line without the carriage return before its end. -/
def stripCr (l : List Char) : List Char := if l.getLast? = some '\r' then l.dropLast else l

/-- The lines of a text; a line ends at `\n` or `\r\n`, and the last end is optional.  A last line
without an end keeps its `\r`. -/
def lines (s : String) : List String :=
  let parts := s.toList.splitOn '\n'
  let last := parts.getLast?.filter (· ≠ [])
  (parts.dropLast.map stripCr ++ last.toList).map String.ofList

example : lines "a\r\nb\n\nc\r" = ["a", "b", "", "c\r"] := by decide +kernel

/-- The letters `A`–`Z` in lower case. -/
def asciiLower (s : String) : String := String.ofList (s.toList.map Char.toLower)

/-- The bytes of a text in UTF-8. -/
def utf8 (s : String) : List UInt8 := s.toList.flatMap String.utf8EncodeChar

theorem utf8_inj {a b : String} (h : utf8 a = utf8 b) : a = b := by
  apply String.toByteArray_inj.1
  rw [← String.utf8Encode_toList, ← String.utf8Encode_toList, List.utf8Encode, List.utf8Encode]
  exact congrArg List.toByteArray h

theorem utf8EncodeChar_of_lt {c : Char} (h : c.toNat < 128) :
    String.utf8EncodeChar c = [UInt8.ofNat c.toNat] := by
  have hv : c.val.toNat ≤ 0x7F := Nat.lt_succ_iff.1 h
  rw [String.utf8EncodeChar, if_pos hv]
  rfl

theorem exists_mem_utf8EncodeChar {c : Char} (h : 128 ≤ c.toNat) :
    ∃ b ∈ String.utf8EncodeChar c, 128 ≤ b.toNat := by
  have hv : ¬c.val.toNat ≤ 0x7F := by
    have : c.toNat = c.val.toNat := rfl
    omega
  rw [String.utf8EncodeChar, if_neg hv]
  split_ifs
  all_goals
    refine ⟨_, List.mem_cons_self, ?_⟩
    simp
    omega

/-- A text of ASCII bytes has only ASCII characters. -/
theorem ascii_of_utf8 {s : String} (h : ∀ b ∈ utf8 s, b.toNat < 128) :
    ∀ c ∈ s.toList, c.toNat < 128 := by
  intro c hc
  by_contra hge
  obtain ⟨b, hb, hbn⟩ := exists_mem_utf8EncodeChar (not_lt.1 hge)
  exact absurd (h b (List.mem_flatMap.2 ⟨c, hc, hb⟩)) (by omega)

theorem utf8_of_ascii {s : String} (h : ∀ c ∈ s.toList, c.toNat < 128) :
    utf8 s = s.toList.map fun c => UInt8.ofNat c.toNat := by
  rw [utf8, List.map_eq_flatMap]
  exact List.flatMap_congr fun c hc => utf8EncodeChar_of_lt (h c hc)

/-! ### base64 -/

/-- The alphabets; they differ in the last two digits. -/
def base64Alphabet (urlSafe : Bool) : List Char :=
  "ABCDEFGHIJKLMNOPQRSTUVWXYZabcdefghijklmnopqrstuvwxyz0123456789".toList ++
    (if urlSafe then ['-', '_'] else ['+', '/'])

/-- The digit with value `n`. -/
def base64Digit (urlSafe : Bool) (n : ℕ) : Char := (base64Alphabet urlSafe).getD n 'A'

/-- base64url without padding: three bytes become four digits. -/
def base64Chars : List UInt8 → List Char
  | [] => []
  | [a] => [a.toNat / 4, a.toNat % 4 * 16].map (base64Digit true)
  | [a, b] =>
      [a.toNat / 4, a.toNat % 4 * 16 + b.toNat / 16, b.toNat % 16 * 4].map (base64Digit true)
  | a :: b :: c :: rest =>
      [a.toNat / 4, a.toNat % 4 * 16 + b.toNat / 16, b.toNat % 16 * 4 + c.toNat / 64,
        c.toNat % 64].map (base64Digit true) ++ base64Chars rest

/-- base64url of a byte string, without padding (RFC 4648 §5). -/
def base64url (bytes : List UInt8) : String := String.ofList (base64Chars bytes)

/-- The value of a digit of the standard alphabet. -/
def base64Value (c : Char) : Option ℕ := (base64Alphabet false).findIdx? (· == c)

/-- Decoding of the standard alphabet: padding is required, and the bits that the last digit
does not use are zero. -/
def base64Decode : List Char → Option (List UInt8)
  | [] => some []
  | [a, b, '=', '='] => do
      let a ← base64Value a
      let b ← base64Value b
      if b % 16 = 0 then some [UInt8.ofNat (a * 4 + b / 16)] else none
  | [a, b, c, '='] => do
      let a ← base64Value a
      let b ← base64Value b
      let c ← base64Value c
      if c % 4 = 0 then
        some [UInt8.ofNat (a * 4 + b / 16), UInt8.ofNat (b % 16 * 16 + c / 4)]
      else none
  | a :: b :: c :: d :: rest => do
      let a ← base64Value a
      let b ← base64Value b
      let c ← base64Value c
      let d ← base64Value d
      let rest ← base64Decode rest
      some (UInt8.ofNat (a * 4 + b / 16) :: UInt8.ofNat (b % 16 * 16 + c / 4) ::
        UInt8.ofNat (c % 4 * 64 + d) :: rest)
  | _ => none

theorem base64Alphabet_nodup : (base64Alphabet true).Nodup := by decide

theorem base64Digit_inj {m n : ℕ} (hm : m < 64) (hn : n < 64)
    (h : base64Digit true m = base64Digit true n) : m = n := by
  have hlen : (base64Alphabet true).length = 64 := by decide
  rw [base64Digit, base64Digit, List.getD_eq_getElem _ _ (by omega),
    List.getD_eq_getElem _ _ (by omega)] at h
  exact (base64Alphabet_nodup.getElem_inj_iff).1 h

theorem base64Chars_inj (x : List UInt8) : ∀ y, base64Chars x = base64Chars y → x = y := by
  induction x using base64Chars.induct with
  | case1 =>
      intro y h
      match y with
      | [] => rfl
      | [_] | [_, _] | _ :: _ :: _ :: _ => simp [base64Chars] at h
  | case2 a =>
      intro y h
      match y with
      | [a'] =>
          simp only [base64Chars, List.map_cons, List.cons.injEq] at h
          have h1 := base64Digit_inj (by have := a.toNat_lt; omega) (by have := a'.toNat_lt; omega) h.1
          have h2 := base64Digit_inj (by omega) (by omega) h.2.1
          simp only [List.cons.injEq, and_true]
          exact UInt8.toNat_inj.1 (by omega)
      | [] | [_, _] | _ :: _ :: _ :: _ => simp [base64Chars] at h
  | case3 a b =>
      intro y h
      match y with
      | [a', b'] =>
          simp only [base64Chars, List.map_cons, List.cons.injEq] at h
          have ha := a.toNat_lt; have hb := b.toNat_lt; have ha' := a'.toNat_lt; have hb' := b'.toNat_lt
          have h1 := base64Digit_inj (by omega) (by omega) h.1
          have h2 := base64Digit_inj (by omega) (by omega) h.2.1
          have h3 := base64Digit_inj (by omega) (by omega) h.2.2.1
          simp only [List.cons.injEq, and_true]
          exact ⟨UInt8.toNat_inj.1 (by omega), UInt8.toNat_inj.1 (by omega)⟩
      | [] | [_] | _ :: _ :: _ :: _ => simp [base64Chars] at h
  | case4 a b c rest ih =>
      intro y h
      match y with
      | a' :: b' :: c' :: rest' =>
          simp only [base64Chars, List.map_cons, List.map_nil, List.cons_append, List.nil_append,
            List.cons.injEq] at h
          obtain ⟨h1, h2, h3, h4, h5⟩ := h
          have ha := a.toNat_lt; have hb := b.toNat_lt; have hc := c.toNat_lt
          have ha' := a'.toNat_lt; have hb' := b'.toNat_lt; have hc' := c'.toNat_lt
          have h1 := base64Digit_inj (by omega) (by omega) h1
          have h2 := base64Digit_inj (by omega) (by omega) h2
          have h3 := base64Digit_inj (by omega) (by omega) h3
          have h4 := base64Digit_inj (by omega) (by omega) h4
          simp only [List.cons.injEq]
          exact ⟨UInt8.toNat_inj.1 (by omega), UInt8.toNat_inj.1 (by omega),
            UInt8.toNat_inj.1 (by omega), ih rest' h5⟩
      | [] | [_] | [_, _] => simp [base64Chars] at h

theorem base64Chars_length (x : List UInt8) : (base64Chars x).length = (x.length * 4 + 2) / 3 := by
  induction x using base64Chars.induct with
  | case1 => rfl
  | case2 a => simp [base64Chars]
  | case3 a b => simp [base64Chars]
  | case4 a b c rest ih =>
      simp only [base64Chars, List.length_append, List.length_map, List.length_cons,
        List.length_nil, ih]
      omega

theorem mem_base64Alphabet (n : ℕ) : base64Digit true n ∈ base64Alphabet true := by
  rw [base64Digit, List.getD_eq_getElem?_getD]
  cases h : (base64Alphabet true)[n]? with
  | none => decide
  | some c => exact List.mem_of_getElem? h

theorem mem_base64Chars {c : Char} (bytes : List UInt8) (h : c ∈ base64Chars bytes) :
    c ∈ base64Alphabet true := by
  induction bytes using base64Chars.induct with
  | case1 => exact absurd h List.not_mem_nil
  | case2 a =>
      obtain ⟨n, -, rfl⟩ := List.mem_map.1 h
      exact mem_base64Alphabet n
  | case3 a b =>
      obtain ⟨n, -, rfl⟩ := List.mem_map.1 h
      exact mem_base64Alphabet n
  | case4 a b c rest ih =>
      rcases List.mem_append.1 h with h | h
      · obtain ⟨n, -, rfl⟩ := List.mem_map.1 h
        exact mem_base64Alphabet n
      · exact ih h

/-- **base64url is injective.** -/
theorem base64url_inj {x y : List UInt8} (h : base64url x = base64url y) : x = y :=
  base64Chars_inj _ _ (String.ofList_injective h)

/-! ### UTF-8 -/

/-- An unfinished character: how many bytes are missing, the bits so far, and the range of
the next byte. -/
structure Utf8Partial where
  missing : ℕ
  bits : ℕ
  lo : ℕ
  hi : ℕ

/-- What a byte starts: a character, an unfinished one, or nothing. -/
def utf8Start (b : UInt8) : Option Char ⊕ Utf8Partial :=
  let n := b.toNat
  if n < 0x80 then .inl (some (Char.ofNat n))
  else if n < 0xC2 then .inl none
  else if n < 0xE0 then .inr ⟨1, n % 32, 0x80, 0xBF⟩
  else if n < 0xF0 then
    .inr ⟨2, n % 16, if n = 0xE0 then 0xA0 else 0x80, if n = 0xED then 0x9F else 0xBF⟩
  else if n < 0xF5 then
    .inr ⟨3, n % 8, if n = 0xF0 then 0x90 else 0x80, if n = 0xF4 then 0x8F else 0xBF⟩
  else .inl none

/-- The characters of a byte string; `none` stands for a maximal malformed part. -/
def utf8Scan : Option Utf8Partial → List UInt8 → List (Option Char)
  | none, [] => []
  | some _, [] => [none]
  | none, b :: bs =>
      match utf8Start b with
      | .inl c => c :: utf8Scan none bs
      | .inr p => utf8Scan (some p) bs
  | some p, b :: bs =>
      if p.lo ≤ b.toNat ∧ b.toNat ≤ p.hi then
        let bits := p.bits * 64 + b.toNat % 64
        if p.missing = 1 then some (Char.ofNat bits) :: utf8Scan none bs
        else utf8Scan (some ⟨p.missing - 1, bits, 0x80, 0xBF⟩) bs
      else
        match utf8Start b with
        | .inl c => none :: c :: utf8Scan none bs
        | .inr p' => none :: utf8Scan (some p') bs

/-- The text of well-formed UTF-8. -/
def utf8Decode (bytes : List UInt8) : Option String :=
  ((utf8Scan none bytes).mapM id).map String.ofList

/-- The text of a byte string, with U+FFFD for every malformed part. -/
def utf8DecodeLossy (bytes : List UInt8) : String :=
  String.ofList ((utf8Scan none bytes).map (·.getD (Char.ofNat 0xFFFD)))

/-! ### `application/x-www-form-urlencoded` -/

/-- An upper-case hexadecimal digit. -/
def hexDigit (n : ℕ) : Char := "0123456789ABCDEF".toList.getD n '0'

/-- One byte of a serialized name or value. -/
def formEncodeByte (b : UInt8) : List Char :=
  let c := Char.ofNat b.toNat
  if c.isAlphanum || "*-._".toList.contains c then [c]
  else if c = ' ' then ['+']
  else ['%', hexDigit (b.toNat / 16), hexDigit (b.toNat % 16)]

/-- A serialized name or value. -/
def formEncode (s : String) : String := String.ofList ((utf8 s).flatMap formEncodeByte)

/-- Append the serialized pairs to a query, with `&` between any two parts. -/
def formAppend (query : String) : List (String × String) → String
  | [] => query
  | (name, value) :: pairs =>
      let sep := if query.isEmpty then "" else "&"
      formAppend (query ++ sep ++ formEncode name ++ "=" ++ formEncode value) pairs

/-- The value of a hexadecimal digit. -/
def hexValue (b : UInt8) : Option ℕ :=
  let n := b.toNat
  if 0x30 ≤ n ∧ n ≤ 0x39 then some (n - 0x30)
  else if 0x41 ≤ n ∧ n ≤ 0x46 then some (n - 0x37)
  else if 0x61 ≤ n ∧ n ≤ 0x66 then some (n - 0x57)
  else none

/-- Percent-decoding; a `%` that two hexadecimal digits do not follow stays. -/
def percentDecode : List UInt8 → List UInt8
  | b :: h :: l :: rest =>
      match b == 0x25, hexValue h, hexValue l with
      | true, some h, some l => UInt8.ofNat (h * 16 + l) :: percentDecode rest
      | _, _, _ => b :: percentDecode (h :: l :: rest)
  | bytes => bytes

/-- A name or value of a serialized form: `+` stands for a space. -/
def formDecode (bytes : List UInt8) : String :=
  utf8DecodeLossy (percentDecode (bytes.map fun b => if b = 0x2B then 0x20 else b))

/-- The pairs of a serialized form. -/
def formParse (bytes : List UInt8) : List (String × String) :=
  ((bytes.splitOn 0x26).filter (· ≠ [])).map fun part =>
    let p := part.span (· != 0x3D)
    (formDecode p.1, formDecode p.2.tail)

end SharpOauth
