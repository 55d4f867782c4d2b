import SharpOauth.FormRoundTrip

/-! # base64 is read back

`base64Decode` undoes the encoding of RFC 4648 §4 with padding (`base64Decode_base64Encode`), and
the text that is encoded may have blanks around it (`trim_padded`).  For the layers inside: a text
is read back from its bytes (`utf8Decode_utf8`), and an ASCII character occurs in a text if and
only if its byte occurs in the bytes (`mem_utf8_iff`). -/

namespace SharpOauth

/-! ### base64 with padding -/

/-- Standard base64: three bytes become four digits, and `=` fills up the last four. -/
def base64Encode : List UInt8 → List Char
  | [] => []
  | [a] => [base64Digit false (a.toNat / 4), base64Digit false (a.toNat % 4 * 16), '=', '=']
  | [a, b] =>
      [base64Digit false (a.toNat / 4), base64Digit false (a.toNat % 4 * 16 + b.toNat / 16),
        base64Digit false (b.toNat % 16 * 4), '=']
  | a :: b :: c :: rest =>
      base64Digit false (a.toNat / 4) :: base64Digit false (a.toNat % 4 * 16 + b.toNat / 16) ::
        base64Digit false (b.toNat % 16 * 4 + c.toNat / 64) :: base64Digit false (c.toNat % 64) ::
        base64Encode rest

theorem base64Value_digit : ∀ n < 64, base64Value (base64Digit false n) = some n := by
  decide

theorem base64Digit_ne_pad : ∀ n < 64, base64Digit false n ≠ '=' := by
  decide

/-- Four digits are three bytes. -/
theorem base64Decode_quad {m n o p : ℕ} (hm : m < 64) (hn : n < 64) (ho : o < 64) (hp : p < 64)
    (rest : List Char) :
    base64Decode (base64Digit false m :: base64Digit false n :: base64Digit false o ::
      base64Digit false p :: rest) = (base64Decode rest).map fun bytes =>
        UInt8.ofNat (m * 4 + n / 16) :: UInt8.ofNat (n % 16 * 16 + o / 4) ::
          UInt8.ofNat (o % 4 * 64 + p) :: bytes := by
  have hpad := base64Digit_ne_pad p hp
  have ho' := base64Value_digit o ho
  have hp' := base64Value_digit p hp
  rw [base64Decode]
  · rw [base64Value_digit m hm, base64Value_digit n hn, ho', hp']
    cases base64Decode rest <;> rfl
  · intro _ h
    exact absurd h hpad
  · intro h
    exact absurd h hpad

/-- **base64 is read back.** -/
theorem base64Decode_base64Encode (x : List UInt8) : base64Decode (base64Encode x) = some x := by
  induction x using base64Encode.induct with
  | case1 => rfl
  | case2 a =>
      have ha := a.toNat_lt
      have hvalue : a.toNat / 4 * 4 + a.toNat % 4 * 16 / 16 = a.toNat := by omega
      rw [base64Encode, base64Decode, base64Value_digit _ (by omega), base64Value_digit _ (by omega)]
      simp only [Option.bind_eq_bind, Option.bind_some]
      rw [if_pos (by omega), hvalue, UInt8.ofNat_toNat]
  | case3 a b =>
      have ha := a.toNat_lt
      have hb := b.toNat_lt
      have hfirst : a.toNat / 4 * 4 + (a.toNat % 4 * 16 + b.toNat / 16) / 16 = a.toNat := by omega
      have hsecond : (a.toNat % 4 * 16 + b.toNat / 16) % 16 * 16 + b.toNat % 16 * 4 / 4 = b.toNat := by
        omega
      have hpad := base64Digit_ne_pad (b.toNat % 16 * 4) (by omega)
      rw [base64Encode, base64Decode]
      · rw [base64Value_digit _ (by omega), base64Value_digit _ (by omega),
          base64Value_digit _ (by omega)]
        simp only [Option.bind_eq_bind, Option.bind_some]
        rw [if_pos (by omega), hfirst, hsecond, UInt8.ofNat_toNat, UInt8.ofNat_toNat]
      · exact fun h => hpad h
  | case4 a b c rest ih =>
      have ha := a.toNat_lt
      have hb := b.toNat_lt
      have hc := c.toNat_lt
      have hfirst : a.toNat / 4 * 4 + (a.toNat % 4 * 16 + b.toNat / 16) / 16 = a.toNat := by omega
      have hsecond : (a.toNat % 4 * 16 + b.toNat / 16) % 16 * 16 +
          (b.toNat % 16 * 4 + c.toNat / 64) / 4 = b.toNat := by
        omega
      have hthird : (b.toNat % 16 * 4 + c.toNat / 64) % 4 * 64 + c.toNat % 64 = c.toNat := by omega
      rw [base64Encode, base64Decode_quad (by omega) (by omega) (by omega) (by omega), ih,
        Option.map_some, hfirst, hsecond, hthird, UInt8.ofNat_toNat, UInt8.ofNat_toNat,
        UInt8.ofNat_toNat]

theorem base64Encode_ne_nil {x : List UInt8} (h : x ≠ []) : base64Encode x ≠ [] := by
  intro hnil
  have hread := base64Decode_base64Encode x
  rw [hnil] at hread
  exact h (Option.some.inj hread).symm

/-- What is written is over the alphabet and the padding. -/
theorem base64Encode_charset (x : List UInt8) :
    ∀ c ∈ base64Encode x, c = '=' ∨ ∃ n < 64, c = base64Digit false n := by
  induction x using base64Encode.induct with
  | case1 => exact fun c hc => absurd hc List.not_mem_nil
  | case2 a =>
      have ha := a.toNat_lt
      intro c hc
      simp only [base64Encode, List.mem_cons, List.not_mem_nil, or_false] at hc
      rcases hc with rfl | rfl | rfl | rfl
      · exact .inr ⟨_, by omega, rfl⟩
      · exact .inr ⟨_, by omega, rfl⟩
      · exact .inl rfl
      · exact .inl rfl
  | case3 a b =>
      have ha := a.toNat_lt
      have hb := b.toNat_lt
      intro c hc
      simp only [base64Encode, List.mem_cons, List.not_mem_nil, or_false] at hc
      rcases hc with rfl | rfl | rfl | rfl
      · exact .inr ⟨_, by omega, rfl⟩
      · exact .inr ⟨_, by omega, rfl⟩
      · exact .inr ⟨_, by omega, rfl⟩
      · exact .inl rfl
  | case4 a b c rest ih =>
      have ha := a.toNat_lt
      have hb := b.toNat_lt
      have hc := c.toNat_lt
      intro d hd
      simp only [base64Encode, List.mem_cons] at hd
      rcases hd with rfl | rfl | rfl | rfl | hd
      · exact .inr ⟨_, by omega, rfl⟩
      · exact .inr ⟨_, by omega, rfl⟩
      · exact .inr ⟨_, by omega, rfl⟩
      · exact .inr ⟨_, by omega, rfl⟩
      · exact ih d hd

theorem base64Encode_noWhitespace (x : List UInt8) :
    ∀ c ∈ base64Encode x, isWhitespace c = false := by
  have hdigit : ∀ n < 64, isWhitespace (base64Digit false n) = false := by
    decide +kernel
  intro c hc
  rcases base64Encode_charset x c hc with rfl | ⟨n, hn, rfl⟩
  · decide
  · exact hdigit n hn

/-! ### Blanks -/

/-- Nothing but whitespace. -/
def Blank (s : String) : Prop := ∀ c ∈ s.toList, isWhitespace c = true

/-- Whitespace around a text without whitespace is removed. -/
theorem trim_padded {before core after : String} (hbefore : Blank before) (hafter : Blank after)
    (hcore : ∀ c ∈ core.toList, isWhitespace c = false) (hne : core ≠ "") :
    trim (before ++ core ++ after) = core := by
  have hdrop (l m : List Char) (hl : l ≠ []) (h : ∀ c ∈ l, isWhitespace c = false) :
      (l ++ m).dropWhile isWhitespace = l ++ m := by
    obtain ⟨c, l, rfl⟩ := List.exists_cons_of_ne_nil hl
    rw [List.cons_append, List.dropWhile_cons_of_neg (by simp [h c List.mem_cons_self])]
  have hlist : core.toList ≠ [] := fun h => hne (String.toList_eq_nil_iff.1 h)
  have hreverse : ∀ c ∈ core.toList.reverse, isWhitespace c = false :=
    fun c hc => hcore c (List.mem_reverse.1 hc)
  have hblank : ∀ c ∈ after.toList.reverse, isWhitespace c = true :=
    fun c hc => hafter c (List.mem_reverse.1 hc)
  rw [trim, String.toList_append, String.toList_append, List.append_assoc,
    List.dropWhile_append_of_pos hbefore, hdrop _ _ hlist hcore, List.reverse_append,
    List.dropWhile_append_of_pos hblank]
  have hend := hdrop core.toList.reverse [] (by simpa using hlist) hreverse
  rw [List.append_nil] at hend
  rw [hend, List.reverse_reverse, String.ofList_toList]

/-! ### Texts and bytes -/

/-- **A text is read back from its bytes.** -/
theorem utf8Decode_utf8 (s : String) : utf8Decode (utf8 s) = some s := by
  have hall (l : List Char) : (l.map some).mapM id = some l := by
    induction l with
    | nil => rfl
    | cons c l ih =>
        rw [List.map_cons, List.mapM_cons, ih]
        rfl
  rw [utf8Decode, utf8, utf8Scan_chars, hall, Option.map_some, String.ofList_toList]

/-- A character beyond ASCII has no ASCII bytes. -/
theorem utf8EncodeChar_ge {c : Char} (h : 128 ≤ c.toNat) :
    ∀ b ∈ String.utf8EncodeChar c, 128 ≤ b.toNat := by
  have hv : ¬c.val.toNat ≤ 0x7F := by
    have : c.toNat = c.val.toNat := rfl
    omega
  rw [String.utf8EncodeChar, if_neg hv]
  split_ifs
  all_goals
    simp only [List.forall_mem_cons, List.not_mem_nil, false_imp_iff, implies_true, and_true]
    simp
    omega

/-- An ASCII character occurs in a text if and only if its byte occurs. -/
theorem mem_utf8_iff {s : String} {c : Char} (hc : c.toNat < 128) :
    UInt8.ofNat c.toNat ∈ utf8 s ↔ c ∈ s.toList := by
  rw [utf8, List.mem_flatMap]
  constructor
  · rintro ⟨c', hmem, hb⟩
    by_cases hc' : c'.toNat < 128
    · rw [utf8EncodeChar_of_lt hc', List.mem_singleton] at hb
      have hcode := congrArg UInt8.toNat hb
      rw [toNat_ofNat_of_lt (by omega), toNat_ofNat_of_lt (by omega)] at hcode
      rwa [Char.toNat_inj.1 hcode]
    · have hge := utf8EncodeChar_ge (not_lt.1 hc') _ hb
      rw [toNat_ofNat_of_lt (by omega)] at hge
      omega
  · intro hmem
    exact ⟨c, hmem, by rw [utf8EncodeChar_of_lt hc]; exact List.mem_singleton_self _⟩

/-- Bytes without `%` stay. -/
theorem percentDecode_append {bytes : List UInt8} (h : 0x25 ∉ bytes) (rest : List UInt8) :
    percentDecode (bytes ++ rest) = bytes ++ percentDecode rest := by
  induction bytes with
  | nil => rfl
  | cons b bytes ih =>
      have hb : b ≠ 0x25 := fun heq => h (heq ▸ List.mem_cons_self)
      rw [List.cons_append, percentDecode_cons hb, ih fun hmem => h (List.mem_cons_of_mem _ hmem),
        List.cons_append]

end SharpOauth
