import SharpOauth.Encoding

/-! # Forms are read back

`formParse` undoes `formAppend` (`formParse_formAppend`): whatever names and values a list of
pairs holds, any Unicode text included, the query that is made from it parses to the same
pairs.  What `formAppend` writes is a text over the form alphabet (`formAppend_charset`), so
it has no control character, no backslash and no separator that was not put there.

The lemmas follow the layers of the encoding: a character in UTF-8 (`utf8Scan_utf8`), a byte
with its percent-encoding (`percentDecode_byte`), a name or value (`formDecode_formEncode`),
and the separators. -/

namespace SharpOauth

/-! ### UTF-8 -/

theorem utf8_append (a b : String) : utf8 (a ++ b) = utf8 a ++ utf8 b := by
  rw [utf8, String.toList_append, List.flatMap_append, utf8, utf8]

theorem toNat_ofNat_of_lt {n : ℕ} (h : n < 256) : (UInt8.ofNat n).toNat = n := by
  simp
  omega

theorem charOfNat_eq {c : Char} {n : ℕ} (h : n = c.val.toNat) : Char.ofNat n = c := by
  rw [h]
  exact Char.ofNat_toNat c

/-- A continuation byte in the middle of a character. -/
theorem utf8Scan_more {missing bits lo hi b : ℕ} (rest : List UInt8) (hb : b < 256)
    (hrange : lo ≤ b ∧ b ≤ hi) (hmissing : missing ≠ 1) :
    utf8Scan (some ⟨missing, bits, lo, hi⟩) (UInt8.ofNat b :: rest) =
      utf8Scan (some ⟨missing - 1, bits * 64 + b % 64, 0x80, 0xBF⟩) rest := by
  rw [utf8Scan, toNat_ofNat_of_lt hb, if_pos hrange, if_neg hmissing]

/-- The last byte of a character. -/
theorem utf8Scan_last {bits lo hi b : ℕ} {c : Char} (rest : List UInt8) (hb : b < 256)
    (hrange : lo ≤ b ∧ b ≤ hi) (hc : bits * 64 + b % 64 = c.val.toNat) :
    utf8Scan (some ⟨1, bits, lo, hi⟩) (UInt8.ofNat b :: rest) = some c :: utf8Scan none rest := by
  rw [utf8Scan, toNat_ofNat_of_lt hb, if_pos hrange, if_pos rfl, charOfNat_eq hc]

/-- The first byte of a character of several bytes. -/
theorem utf8Scan_first {b : ℕ} {p : Utf8Partial} (rest : List UInt8)
    (h : utf8Start (UInt8.ofNat b) = .inr p) :
    utf8Scan none (UInt8.ofNat b :: rest) = utf8Scan (some p) rest := by
  rw [utf8Scan, h]

/-- **A character is read back from its bytes.** -/
theorem utf8Scan_char (c : Char) (rest : List UInt8) :
    utf8Scan none (String.utf8EncodeChar c ++ rest) = some c :: utf8Scan none rest := by
  have hvalid : c.val.toNat < 0xD800 ∨ 0xDFFF < c.val.toNat ∧ c.val.toNat < 0x110000 := c.valid
  generalize hv : c.val.toNat = v at hvalid
  rw [String.utf8EncodeChar, hv]
  split_ifs with h1 h2 h3
  · have hstart : utf8Start (UInt8.ofNat v) = .inl (some c) := by
      have hlt : v < 0x80 := by omega
      rw [utf8Start, toNat_ofNat_of_lt (by omega), if_pos hlt, charOfNat_eq hv.symm]
    rw [List.singleton_append, utf8Scan, hstart]
  · have hstart : utf8Start (UInt8.ofNat (v / 64 % 0x20 + 0xC0)) =
        .inr ⟨1, (v / 64 % 0x20 + 0xC0) % 32, 0x80, 0xBF⟩ := by
      rw [utf8Start, toNat_ofNat_of_lt (by omega), if_neg (by omega), if_neg (by omega),
        if_pos (by omega)]
    simp only [List.cons_append, List.nil_append]
    rw [utf8Scan_first _ hstart]
    exact utf8Scan_last rest (by omega) ⟨by omega, by omega⟩ (by omega)
  · have hstart : utf8Start (UInt8.ofNat (v / 4096 % 0x10 + 0xE0)) =
        .inr ⟨2, (v / 4096 % 0x10 + 0xE0) % 16,
          if v / 4096 % 0x10 + 0xE0 = 0xE0 then 0xA0 else 0x80,
          if v / 4096 % 0x10 + 0xE0 = 0xED then 0x9F else 0xBF⟩ := by
      rw [utf8Start, toNat_ofNat_of_lt (by omega), if_neg (by omega), if_neg (by omega),
        if_neg (by omega), if_pos (by omega)]
    simp only [List.cons_append, List.nil_append]
    rw [utf8Scan_first _ hstart]
    -- Neither overlong nor a surrogate: that is what the narrowed ranges say.
    have hlo : (if v / 4096 % 0x10 + 0xE0 = 0xE0 then 0xA0 else 0x80) ≤ v / 64 % 0x40 + 0x80 := by
      split_ifs <;> omega
    have hhi : v / 64 % 0x40 + 0x80 ≤ (if v / 4096 % 0x10 + 0xE0 = 0xED then 0x9F else 0xBF) := by
      split_ifs <;> omega
    rw [utf8Scan_more _ (by omega) ⟨hlo, hhi⟩ (by simp)]
    exact utf8Scan_last rest (by omega) ⟨by omega, by omega⟩ (by omega)
  · have hstart : utf8Start (UInt8.ofNat (v / 262144 % 0x08 + 0xF0)) =
        .inr ⟨3, (v / 262144 % 0x08 + 0xF0) % 8,
          if v / 262144 % 0x08 + 0xF0 = 0xF0 then 0x90 else 0x80,
          if v / 262144 % 0x08 + 0xF0 = 0xF4 then 0x8F else 0xBF⟩ := by
      rw [utf8Start, toNat_ofNat_of_lt (by omega), if_neg (by omega), if_neg (by omega),
        if_neg (by omega), if_neg (by omega), if_pos (by omega)]
    simp only [List.cons_append, List.nil_append]
    rw [utf8Scan_first _ hstart]
    have hlo : (if v / 262144 % 0x08 + 0xF0 = 0xF0 then 0x90 else 0x80) ≤
        v / 4096 % 0x40 + 0x80 := by
      split_ifs <;> omega
    have hhi : v / 4096 % 0x40 + 0x80 ≤
        (if v / 262144 % 0x08 + 0xF0 = 0xF4 then 0x8F else 0xBF) := by
      split_ifs <;> omega
    rw [utf8Scan_more _ (by omega) ⟨hlo, hhi⟩ (by simp),
      utf8Scan_more _ (by omega) ⟨by omega, by omega⟩ (by simp)]
    exact utf8Scan_last rest (by omega) ⟨by omega, by omega⟩ (by omega)

theorem utf8Scan_chars (l : List Char) :
    utf8Scan none (l.flatMap String.utf8EncodeChar) = l.map some := by
  induction l with
  | nil => rfl
  | cons c l ih => rw [List.flatMap_cons, utf8Scan_char, ih, List.map_cons]

/-- **A text is read back from its bytes.** -/
theorem utf8DecodeLossy_utf8 (s : String) : utf8DecodeLossy (utf8 s) = s := by
  rw [utf8DecodeLossy, utf8, utf8Scan_chars, List.map_map]
  have hid : ((fun o : Option Char => o.getD (Char.ofNat 0xFFFD)) ∘ some) = id := rfl
  rw [hid, List.map_id, String.ofList_toList]

/-! ### Bytes -/

/-- The characters of a serialized form. -/
def FormChar (c : Char) : Prop := c.isAlphanum = true ∨ c ∈ "*-._+%".toList

instance (c : Char) : Decidable (FormChar c) := inferInstanceAs (Decidable (_ ∨ _))

/-- The bytes of some ASCII characters. -/
def asciiBytes (l : List Char) : List UInt8 := l.map fun c => UInt8.ofNat c.toNat

@[simp] theorem asciiBytes_append (l m : List Char) :
    asciiBytes (l ++ m) = asciiBytes l ++ asciiBytes m := List.map_append

/-- `+` stands for a space. -/
def plusToSpace (bytes : List UInt8) : List UInt8 := bytes.map fun b => if b = 0x2B then 0x20 else b

@[simp] theorem plusToSpace_append (x y : List UInt8) :
    plusToSpace (x ++ y) = plusToSpace x ++ plusToSpace y := List.map_append

theorem percentDecode_cons {b : UInt8} (h : b ≠ 0x25) (rest : List UInt8) :
    percentDecode (b :: rest) = b :: percentDecode rest := by
  have hb : (b == 0x25) = false := by simpa using h
  rcases rest with - | ⟨x, - | ⟨y, rest⟩⟩
  · simp [percentDecode]
  · simp [percentDecode]
  · rw [percentDecode, hb]

theorem percentDecode_escape {h l : UInt8} {m n : ℕ} (hh : hexValue h = some m)
    (hl : hexValue l = some n) (rest : List UInt8) :
    percentDecode (0x25 :: h :: l :: rest) = UInt8.ofNat (m * 16 + n) :: percentDecode rest := by
  rw [percentDecode, hh, hl]
  rfl

theorem hexValue_hexDigit : ∀ n < 16, hexValue (UInt8.ofNat (hexDigit n).toNat) = some n := by
  decide

theorem hexDigit_charset : ∀ n < 16, FormChar (hexDigit n) ∧ hexDigit n ≠ '+' := by
  decide

/-- The bytes that stand for themselves. -/
theorem formEncodeByte_literal : ∀ n < 256,
    ((Char.ofNat n).isAlphanum || "*-._".toList.contains (Char.ofNat n)) = true →
      FormChar (Char.ofNat n) ∧ n ≠ 0x25 ∧ n ≠ 0x2B ∧ (Char.ofNat n).toNat = n := by
  decide +kernel

theorem formChar_lt {c : Char} (h : FormChar c) : c.toNat < 128 := by
  rcases h with h | h
  · simp only [Char.isAlphanum, Char.isAlpha, Char.isUpper, Char.isLower, Char.isDigit,
      Bool.or_eq_true, Bool.and_eq_true, decide_eq_true_eq, UInt32.le_iff_toNat_le, ge_iff_le] at h
    have hval : c.toNat = c.val.toNat := rfl
    simp at h
    omega
  · simp at h
    rcases h with rfl | rfl | rfl | rfl | rfl | rfl <;> decide

theorem formEncodeByte_charset (b : UInt8) : ∀ c ∈ formEncodeByte b, FormChar c := by
  have hb : b.toNat < 256 := b.toNat_lt
  intro c hc
  rw [formEncodeByte] at hc
  split_ifs at hc with hliteral hspace
  · rw [List.mem_singleton.1 hc]
    exact (formEncodeByte_literal _ hb hliteral).1
  · rw [List.mem_singleton.1 hc]
    decide
  · simp only [List.mem_cons, List.not_mem_nil, or_false] at hc
    rcases hc with rfl | rfl | rfl
    · decide
    · exact (hexDigit_charset _ (by omega)).1
    · exact (hexDigit_charset _ (by omega)).1

/-- **A byte is read back from its percent-encoding.** -/
theorem percentDecode_byte (b : UInt8) (rest : List UInt8) :
    percentDecode (plusToSpace (asciiBytes (formEncodeByte b)) ++ rest) =
      b :: percentDecode rest := by
  have hb : b.toNat < 256 := b.toNat_lt
  have hself : UInt8.ofNat b.toNat = b := by simp
  rw [formEncodeByte]
  split_ifs with hliteral hspace
  · obtain ⟨-, hpercent, hplus, hcode⟩ := formEncodeByte_literal _ hb hliteral
    have hne (n : ℕ) (hn : n < 256) (h : b.toNat ≠ n) : b ≠ UInt8.ofNat n := by
      rintro rfl
      exact h (toNat_ofNat_of_lt hn)
    have hbytes : plusToSpace (asciiBytes [Char.ofNat b.toNat]) = [b] := by
      simp only [asciiBytes, plusToSpace, List.map_cons, List.map_nil]
      have hplus : b ≠ 0x2B := hne 0x2B (by decide) hplus
      rw [hcode, hself, if_neg hplus]
    rw [hbytes, List.singleton_append]
    exact percentDecode_cons (hne 0x25 (by decide) hpercent) rest
  · have hspace : ∀ n < 256, Char.ofNat n = ' ' → n = 0x20 := by decide +kernel
    have hb : b = 0x20 := by
      rw [← hself, hspace _ hb ‹_›]
      rfl
    rw [hb]
    exact percentDecode_cons (by decide) rest
  · have hhigh := hexDigit_charset (b.toNat / 16) (by omega)
    have hlow := hexDigit_charset (b.toNat % 16) (by omega)
    have hplus : ∀ n < 16, UInt8.ofNat (hexDigit n).toNat ≠ 0x2B := by decide
    have hbytes : plusToSpace (asciiBytes ['%', hexDigit (b.toNat / 16), hexDigit (b.toNat % 16)]) =
        [0x25, UInt8.ofNat (hexDigit (b.toNat / 16)).toNat,
          UInt8.ofNat (hexDigit (b.toNat % 16)).toNat] := by
      simp only [asciiBytes, plusToSpace, List.map_cons, List.map_nil]
      rw [if_neg (hplus _ (by omega)), if_neg (hplus _ (by omega))]
      rfl
    rw [hbytes]
    simp only [List.cons_append, List.nil_append]
    rw [percentDecode_escape (hexValue_hexDigit _ (by omega)) (hexValue_hexDigit _ (by omega))]
    have hvalue : b.toNat / 16 * 16 + b.toNat % 16 = b.toNat := by omega
    rw [hvalue, hself]

/-! ### Names and values -/

/-- The bytes of a serialized name or value. -/
def formBytes (s : String) : List UInt8 := asciiBytes ((utf8 s).flatMap formEncodeByte)

theorem percentDecode_bytes (bytes : List UInt8) :
    percentDecode (plusToSpace (asciiBytes (bytes.flatMap formEncodeByte))) = bytes := by
  induction bytes with
  | nil => rfl
  | cons b bytes ih =>
      rw [List.flatMap_cons, asciiBytes_append, plusToSpace_append, percentDecode_byte, ih]

/-- **A name or value is read back.** -/
theorem formDecode_formBytes (s : String) : formDecode (formBytes s) = s := by
  have hbytes := percentDecode_bytes (utf8 s)
  rw [plusToSpace] at hbytes
  rw [formDecode, formBytes, hbytes, utf8DecodeLossy_utf8]

theorem formEncode_charset (s : String) : ∀ c ∈ (formEncode s).toList, FormChar c := by
  intro c hc
  rw [formEncode, String.toList_ofList] at hc
  obtain ⟨b, -, hc⟩ := List.mem_flatMap.1 hc
  exact formEncodeByte_charset b c hc

/-- No byte of a name or value separates. -/
theorem formBytes_separator {s : String} {b : UInt8} (h : b ∈ formBytes s) : b ≠ 0x26 ∧ b ≠ 0x3D := by
  have hne (n : ℕ) (d : Char) (hn : n < 256) (hd : d.toNat = n) (hformd : ¬FormChar d) :
      b ≠ UInt8.ofNat n := by
    obtain ⟨c, hc, rfl⟩ := List.mem_map.1 h
    obtain ⟨b', -, hc⟩ := List.mem_flatMap.1 hc
    have hform := formEncodeByte_charset b' c hc
    intro heq
    have hcode := congrArg UInt8.toNat heq
    rw [toNat_ofNat_of_lt (by have := formChar_lt hform; omega), toNat_ofNat_of_lt hn, ← hd] at hcode
    exact hformd (Char.toNat_inj.1 hcode ▸ hform)
  exact ⟨hne 0x26 '&' (by decide) rfl (by decide), hne 0x3D '=' (by decide) rfl (by decide)⟩

/-! ### Pairs -/

/-- A serialized pair. -/
def formPair (p : String × String) : List Char :=
  (formEncode p.1).toList ++ '=' :: (formEncode p.2).toList

theorem formAppend_toList (pairs : List (String × String)) : ∀ query : String, query ≠ "" →
    (formAppend query pairs).toList = query.toList ++ pairs.flatMap fun p => '&' :: formPair p := by
  induction pairs with
  | nil =>
      intro query _
      rw [formAppend, List.flatMap_nil, List.append_nil]
  | cons p pairs ih =>
      intro query hquery
      have hsep : query.isEmpty = false := by simpa [String.isEmpty_iff] using hquery
      rw [formAppend, hsep, ih _ (by simp [String.append_eq_empty_iff])]
      simp [formPair]

theorem intercalate_cons_flatMap {α : Type} (sep : α) (l : List α) (ls : List (List α)) :
    [sep].intercalate (l :: ls) = l ++ ls.flatMap (sep :: ·) := by
  induction ls generalizing l with
  | nil => simp
  | cons m ls ih => rw [List.intercalate_cons_cons, ih, List.flatMap_cons]; simp

theorem formAppend_empty (pairs : List (String × String)) :
    (formAppend "" pairs).toList = ['&'].intercalate (pairs.map formPair) := by
  cases pairs with
  | nil => rfl
  | cons p pairs =>
      have hne : formEncode p.1 ++ "=" ++ formEncode p.2 ≠ "" := by
        simp [String.append_eq_empty_iff]
      have hstep : formAppend "" (p :: pairs) =
          formAppend (formEncode p.1 ++ "=" ++ formEncode p.2) pairs := by
        simp [formAppend]
      rw [hstep, formAppend_toList pairs _ hne, List.map_cons, intercalate_cons_flatMap,
        List.flatMap_map]
      simp [formPair]

/-- **What is written is over the form alphabet and the separators.** -/
theorem formAppend_charset (pairs : List (String × String)) :
    ∀ c ∈ (formAppend "" pairs).toList, FormChar c ∨ c = '&' ∨ c = '=' := by
  have hpair (p : String × String) : ∀ c ∈ formPair p, FormChar c ∨ c = '&' ∨ c = '=' := by
    intro c hc
    rcases List.mem_append.1 hc with hc | hc
    · exact .inl (formEncode_charset _ c hc)
    · rcases List.mem_cons.1 hc with rfl | hc
      · exact .inr (.inr rfl)
      · exact .inl (formEncode_charset _ c hc)
  intro c hc
  rw [formAppend_empty] at hc
  cases pairs with
  | nil => exact absurd hc List.not_mem_nil
  | cons p pairs =>
      rw [List.map_cons, intercalate_cons_flatMap] at hc
      rcases List.mem_append.1 hc with hc | hc
      · exact hpair p c hc
      · obtain ⟨l, hl, hc⟩ := List.mem_flatMap.1 hc
        obtain ⟨q, -, rfl⟩ := List.mem_map.1 hl
        rcases List.mem_cons.1 hc with rfl | hc
        · exact .inr (.inl rfl)
        · exact hpair q c hc

theorem formAppend_bytes (pairs : List (String × String)) : utf8 (formAppend "" pairs) =
    [0x26].intercalate (pairs.map fun p => formBytes p.1 ++ 0x3D :: formBytes p.2) := by
  have hascii : ∀ c ∈ (formAppend "" pairs).toList, c.toNat < 128 := by
    intro c hc
    rcases formAppend_charset pairs c hc with h | rfl | rfl
    · exact formChar_lt h
    · decide
    · decide
  have hpair (p : String × String) :
      asciiBytes (formPair p) = formBytes p.1 ++ 0x3D :: formBytes p.2 := by
    simp [formPair, formBytes, formEncode, asciiBytes]
  rw [utf8_of_ascii hascii, formAppend_empty]
  cases pairs with
  | nil => rfl
  | cons p pairs =>
      rw [List.map_cons, List.map_cons, intercalate_cons_flatMap, intercalate_cons_flatMap,
        List.map_append, List.map_flatMap, List.flatMap_map, List.flatMap_map]
      refine congrArg₂ _ (hpair p) (List.flatMap_congr fun q _ => ?_)
      rw [List.map_cons]
      exact congrArg _ (hpair q)

theorem formParse_part (p : String × String) :
    (let part := formBytes p.1 ++ 0x3D :: formBytes p.2
     let q := part.span (· != 0x3D)
     (formDecode q.1, formDecode q.2.tail)) = p := by
  have hname : ∀ b ∈ formBytes p.1, (b != 0x3D) = true := fun b hb => by
    simpa using (formBytes_separator hb).2
  have hspan : (formBytes p.1 ++ 0x3D :: formBytes p.2).span (· != 0x3D) =
      (formBytes p.1, 0x3D :: formBytes p.2) := by
    rw [List.span_eq_takeWhile_dropWhile, List.takeWhile_append_of_pos hname,
      List.dropWhile_append_of_pos hname]
    simp
  simp only [hspan, List.tail_cons, formDecode_formBytes]

/-- **A form is read back.** -/
theorem formParse_formAppend (pairs : List (String × String)) :
    formParse (utf8 (formAppend "" pairs)) = pairs := by
  rw [formAppend_bytes, formParse]
  by_cases hpairs : pairs = []
  · rw [hpairs]
    rfl
  · have hseparator : ∀ l ∈ pairs.map (fun p => formBytes p.1 ++ 0x3D :: formBytes p.2),
        (0x26 : UInt8) ∉ l := by
      intro l hl hmem
      obtain ⟨p, -, rfl⟩ := List.mem_map.1 hl
      rcases List.mem_append.1 hmem with h | h
      · exact (formBytes_separator h).1 rfl
      · rcases List.mem_cons.1 h with h | h
        · exact absurd h (by decide)
        · exact (formBytes_separator h).1 rfl
    rw [List.splitOn_intercalate _ hseparator (by simpa using hpairs)]
    have hfilter : (pairs.map fun p => formBytes p.1 ++ 0x3D :: formBytes p.2).filter (· ≠ []) =
        pairs.map fun p => formBytes p.1 ++ 0x3D :: formBytes p.2 := by
      rw [List.filter_eq_self]
      intro l hl
      obtain ⟨p, -, rfl⟩ := List.mem_map.1 hl
      simp
    rw [hfilter, List.map_map]
    exact (List.map_congr_left fun p _ => formParse_part p).trans (List.map_id _)

/-! ### Appending to a query -/

/-- The parts on both sides of a `&` are read apart. -/
theorem formParse_separator (a b : List UInt8) :
    formParse (a ++ 0x26 :: b) = formParse a ++ formParse b := by
  rw [formParse, List.splitOn_append_cons_self, List.filter_append, List.map_append, formParse,
    formParse]

theorem formAppend_of_ne {query : String} {pairs : List (String × String)} (hquery : query ≠ "")
    (hpairs : pairs ≠ []) : formAppend query pairs = query ++ "&" ++ formAppend "" pairs := by
  rw [← String.toList_inj]
  cases pairs with
  | nil => exact absurd rfl hpairs
  | cons p pairs =>
      simp [formAppend_toList _ query hquery, formAppend_empty, intercalate_cons_flatMap,
        List.flatMap_map]

/-- **Pairs that are appended to a query are read after its own.** -/
theorem formParse_extend (query : String) (pairs : List (String × String)) :
    formParse (utf8 (formAppend query pairs)) = formParse (utf8 query) ++ pairs := by
  by_cases hquery : query = ""
  · rw [hquery, formParse_formAppend]
    rfl
  · by_cases hpairs : pairs = []
    · rw [hpairs, formAppend, List.append_nil]
    · have hampersand : utf8 "&" = [0x26] := by decide
      rw [formAppend_of_ne hquery hpairs, utf8_append, utf8_append, hampersand, List.append_assoc,
        List.singleton_append, formParse_separator, formParse_formAppend]

/-- The characters of an extended query. -/
theorem mem_formAppend {query : String} {pairs : List (String × String)} {c : Char}
    (h : c ∈ (formAppend query pairs).toList) : c ∈ query.toList ∨ FormChar c ∨ c = '&' ∨ c = '=' := by
  by_cases hquery : query = ""
  · rw [hquery] at h
    exact .inr (formAppend_charset pairs c h)
  · by_cases hpairs : pairs = []
    · rw [hpairs, formAppend] at h
      exact .inl h
    · rw [formAppend_of_ne hquery hpairs, String.toList_append, String.toList_append,
        List.mem_append, List.mem_append] at h
      rcases h with (h | h) | h
      · exact .inl h
      · exact .inr (.inr (.inl (by simpa using h)))
      · exact .inr (formAppend_charset pairs c h)

end SharpOauth
