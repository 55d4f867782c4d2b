import SharpOauth.FormRoundTrip

/-! # Parsing a URL

The parser of the URL standard for the special schemes (`http`, `https`, `ws`, `wss` and `ftp`),
over character lists.  The states of the standard become functions of the text that is left:

* `prepare` strips the C0 controls and spaces at both ends, and removes tabs and newlines;
* `splitScheme` reads the scheme, in lower case, up to the `:`;
* `parseAuthority` reads the credentials, the host and the port;
* `parsePath`, `splitTail` read the rest, with `.` and `..` resolved;
* `parse` puts them together for an absolute URL, and `resolve` for a reference against a base.

The host parser, the parser for the other schemes and the set of characters that are encoded in a
path are parameters (`Rules`).

A URL keeps its scheme, host and port when text is appended after its authority
(`parseSpecial_of_authority`), and blanks that are appended to an authority make it invalid
(`parseAuthority_blanks`). -/

namespace SharpOauth.UrlStandard

/-! ### Characters -/

/-- A C0 control or a space. -/
def isBlank (c : Char) : Bool := c.toNat ≤ 0x20

/-- A tab or a newline. -/
def isRemoved (c : Char) : Bool := c == '\t' || c == '\n' || c == '\r'

/-- A slash, as special URLs have it. -/
def isSlash (c : Char) : Bool := c == '/' || c == '\\'

/-- The characters that end an authority. -/
def isEnd (c : Char) : Bool := isSlash c || c == '?' || c == '#'

def isSchemeChar (c : Char) : Bool := c.isAlphanum || c == '+' || c == '-' || c == '.'

/-! ### Percent-encoding -/

/-- A byte that is percent-encoded. -/
def escape (b : UInt8) : List Char := ['%', hexDigit (b.toNat / 16), hexDigit (b.toNat % 16)]

/-- UTF-8 percent-encode the characters of a set. -/
def encode (set : Char → Bool) (text : List Char) : List Char :=
  text.flatMap fun c => if set c then (String.utf8EncodeChar c).flatMap escape else [c]

/-- The C0 control percent-encode set. -/
def controlSet (c : Char) : Bool := c.toNat ≤ 0x1F || 0x7E < c.toNat

/-- The special-query percent-encode set. -/
def querySet (c : Char) : Bool := controlSet c || " \"#<>'".toList.contains c

/-- The fragment percent-encode set. -/
def fragmentSet (c : Char) : Bool := controlSet c || " \"<>`".toList.contains c

/-- The userinfo percent-encode set over a path percent-encode set. -/
def userinfoSet (pathSet : Char → Bool) (c : Char) : Bool :=
  pathSet c || "/:;=@[\\]^|".toList.contains c

/-! ### Letters and digits -/

/-- The code of a letter or a digit. -/
theorem alphanum_code {c : Char} (h : c.isAlphanum = true) :
    48 ≤ c.toNat ∧ c.toNat ≤ 57 ∨ 65 ≤ c.toNat ∧ c.toNat ≤ 90 ∨ 97 ≤ c.toNat ∧ c.toNat ≤ 122 := by
  simp only [Char.isAlphanum, Char.isAlpha, Char.isUpper, Char.isLower, Char.isDigit, Bool.or_eq_true,
    Bool.and_eq_true, decide_eq_true_eq, ge_iff_le, UInt32.le_iff_toNat_le] at h
  have hval : c.val.toNat = c.toNat := rfl
  have hdigit : '0'.val.toNat = 48 ∧ '9'.val.toNat = 57 := ⟨rfl, rfl⟩
  have hupper : 'A'.val.toNat = 65 ∧ 'Z'.val.toNat = 90 := ⟨rfl, rfl⟩
  have hlower : 'a'.val.toNat = 97 ∧ 'z'.val.toNat = 122 := ⟨rfl, rfl⟩
  omega

/-- An alphanumeric character is none of the others. -/
theorem alphanum_ne {c d : Char} (h : c.isAlphanum = true) (hd : d.isAlphanum = false) : c ≠ d := by
  rintro rfl
  rw [h] at hd
  cases hd

/-- No character of an escape is a control character. -/
theorem controlSet_escape {c : Char} (h : c = '%' ∨ c.isAlphanum = true) : controlSet c = false := by
  cases h with
  | inl h => rw [h]; decide
  | inr h =>
      have hcode := alphanum_code h
      simp only [controlSet, Bool.or_eq_false_iff, decide_eq_false_iff_not]
      omega

theorem contains_escape {others : List Char}
    (hothers : (others.all fun d => !d.isAlphanum && d != '%') = true) {c : Char}
    (h : c = '%' ∨ c.isAlphanum = true) : others.contains c = false := by
  cases hmem : others.contains c with
  | false => rfl
  | true =>
      have hnot := List.all_eq_true.1 hothers c (List.contains_iff_mem.1 hmem)
      cases h with
      | inl h => simp [h] at hnot
      | inr h => simp [h] at hnot

/-! ### Records -/

/-- A URL record over hosts `H`. -/
structure Record (H : Type) where
  scheme : List Char
  username : List Char
  password : List Char
  host : Option H
  port : Option ℕ
  path : List Char
  query : Option (List Char)
  fragment : Option (List Char)

/-- What the parser is built on. -/
structure Rules (H : Type) where
  parseHost : List Char → Option H
  /-- The URLs of the other schemes, by the text after the `:`. -/
  parseOther : List Char → List Char → Option (Record H)
  /-- The path percent-encode set. -/
  pathSet : Char → Bool
  /-- A host has no C0 control and no space. -/
  host_clean : ∀ text host, parseHost text = some host → ∀ c ∈ text, isBlank c = false
  other_scheme : ∀ scheme text u, parseOther scheme text = some u → u.scheme = scheme
  /-- The set has what is not visible ASCII, and neither `%` nor the hexadecimal digits. -/
  pathSet_control : ∀ c, controlSet c = true ∨ c = ' ' → pathSet c = true
  pathSet_escape : ∀ c, c = '%' ∨ c.isAlphanum = true → pathSet c = false

/-! ### The parser -/

/-- A text without tabs and newlines. -/
def clean (text : List Char) : List Char := text.filter fun c => !isRemoved c

/-- The text that is parsed. -/
def prepare (text : List Char) : List Char := clean ((text.dropWhile isBlank).rdropWhile isBlank)

/-- The scheme, in lower case, and the text after the `:`. -/
def splitScheme (text : List Char) : Option (List Char × List Char) :=
  if text.head?.any Char.isAlpha then
    match text.span isSchemeChar with
    | (scheme, ':' :: rest) => some (scheme.map Char.toLower, rest)
    | _ => none
  else none

/-- The default port of a special scheme. -/
def defaultPort (scheme : List Char) : Option ℕ :=
  [("http", 80), ("https", 443), ("ws", 80), ("wss", 443), ("ftp", 21)].findSome? fun p =>
    if p.1.toList = scheme then some p.2 else none

/-- The userinfo before the last `@`, and what is after it. -/
def splitUserinfo (authority : List Char) : List Char × List Char :=
  if '@' ∈ authority then
    ((authority.rdropWhile (· ≠ '@')).dropLast, authority.rtakeWhile (· ≠ '@'))
  else ([], authority)

/-- The host before the first `:` that is outside brackets, and the port. -/
def splitPort : Bool → List Char → List Char × Option (List Char)
  | _, [] => ([], none)
  | inside, c :: text =>
      if c = ':' ∧ inside = false then ([], some text)
      else
        let p := splitPort (if c = '[' then true else if c = ']' then false else inside) text
        (c :: p.1, p.2)

/-- The number that decimal digits stand for. -/
def portNumber (digits : List Char) : ℕ := digits.foldl (fun n c => 10 * n + (c.toNat - 48)) 0

/-- A port is a 16-bit number; the default port is none. -/
def parsePort (scheme : List Char) : Option (List Char) → Option (Option ℕ)
  | none => some none
  | some [] => some none
  | some (c :: digits) =>
      if (c :: digits).all Char.isDigit ∧ portNumber (c :: digits) ≤ 65535 then
        some (if defaultPort scheme = some (portNumber (c :: digits)) then none
          else some (portNumber (c :: digits)))
      else none

/-- What an authority gives. -/
structure Authority (H : Type) where
  username : List Char
  password : List Char
  host : H
  port : Option ℕ

variable {H : Type}

def Rules.parseAuthority (r : Rules H) (scheme authority : List Char) : Option (Authority H) :=
  let userinfo := (splitUserinfo authority).1
  let hostPort := splitPort false (splitUserinfo authority).2
  let encoded := encode (userinfoSet r.pathSet)
  if hostPort.1 = [] then none
  else (r.parseHost hostPort.1).bind fun host =>
    (parsePort scheme hostPort.2).map fun port =>
      { username := encoded (userinfo.takeWhile (· ≠ ':'))
        password := encoded (userinfo.dropWhile (· ≠ ':')).tail, host, port }

/-- A segment that stands for the directory itself. -/
def isSingleDot (segment : List Char) : Bool :=
  [".", "%2e"].any fun dot => segment.map Char.toLower = dot.toList

/-- A segment that stands for the parent directory. -/
def isDoubleDot (segment : List Char) : Bool :=
  ["..", ".%2e", "%2e.", "%2e%2e"].any fun dots => segment.map Char.toLower = dots.toList

/-- Walk from a directory along the segments. -/
def walk (directory : List (List Char)) : List (List Char) → List (List Char)
  | [] => directory
  | [last] =>
      if isDoubleDot last then directory.dropLast ++ [[]]
      else if isSingleDot last then directory ++ [[]]
      else directory ++ [last]
  | segment :: next :: rest =>
      walk (if isDoubleDot segment then directory.dropLast
        else if isSingleDot segment then directory
        else directory ++ [segment]) (next :: rest)

/-- The path with the given segments. -/
def pathText (segments : List (List Char)) : List Char := segments.flatMap ('/' :: ·)

def Rules.parsePath (r : Rules H) (directory : List (List Char)) (text : List Char) : List Char :=
  pathText (walk directory ((text.splitOnP isSlash).map (encode r.pathSet)))

/-- The path, the query and the fragment. -/
def splitTail (text : List Char) : List Char × Option (List Char) × Option (List Char) :=
  let body := text.takeWhile (· ≠ '#')
  (body.takeWhile (· ≠ '?'), ((body.dropWhile (· ≠ '?')).tail?).map (encode querySet),
    ((text.dropWhile (· ≠ '#')).tail?).map (encode fragmentSet))

/-- A special URL, by the text after the `:`. -/
def Rules.parseSpecial (r : Rules H) (scheme text : List Char) : Option (Record H) :=
  let text := text.dropWhile isSlash
  let after := text.dropWhile fun c => !isEnd c
  (r.parseAuthority scheme (text.takeWhile fun c => !isEnd c)).map fun a =>
    { scheme, username := a.username, password := a.password, host := some a.host, port := a.port
      path := r.parsePath [] (splitTail after).1.tail, query := (splitTail after).2.1
      fragment := (splitTail after).2.2 }

/-- An absolute URL. -/
def Rules.parse (r : Rules H) (text : List Char) : Option (Record H) :=
  match splitScheme (prepare text) with
  | none => none
  | some (scheme, rest) =>
      if (defaultPort scheme).isSome then r.parseSpecial scheme rest else r.parseOther scheme rest

/-- A reference without a scheme, against a special base. -/
def Rules.relative (r : Rules H) (base : Record H) (text : List Char) : Option (Record H) :=
  let (path, query, fragment) := splitTail text
  match path with
  | [] => some { base with query := query <|> base.query, fragment }
  | c :: rest =>
      if isSlash c then
        if rest.head?.any isSlash then r.parseSpecial base.scheme text
        else some { base with path := r.parsePath [] rest, query, fragment }
      else
        some { base with
          path := r.parsePath ((base.path.tail.splitOn '/').dropLast) path, query, fragment }

/-- A URL or a reference, against a special base. -/
def Rules.resolve (r : Rules H) (base : Record H) (text : List Char) : Option (Record H) :=
  match splitScheme (prepare text) with
  | none => r.relative base (prepare text)
  | some (scheme, rest) =>
      if (defaultPort scheme).isSome then
        if scheme = base.scheme ∧ ¬['/', '/'].isPrefixOf rest then r.relative base rest
        else r.parseSpecial scheme rest
      else r.parseOther scheme rest

/-! ### Cutting a text -/

/-- A text is cut where the characters of its first part end. -/
theorem cut_append {p : Char → Bool} {a b : List Char} (ha : ∀ c ∈ a, p c = true)
    (hb : ∀ c ∈ b.head?, p c = false) : (a ++ b).takeWhile p = a ∧ (a ++ b).dropWhile p = b := by
  rw [List.takeWhile_append_of_pos ha, List.dropWhile_append_of_pos ha]
  cases b with
  | nil => simp
  | cons c b =>
      have hc : ¬p c = true := by simp [hb c rfl]
      simp [List.takeWhile_cons_of_neg hc, List.dropWhile_cons_of_neg hc]

theorem head_dropWhile {p : Char → Bool} (l : List Char) :
    ∀ c ∈ (l.dropWhile p).head?, p c = false := by
  intro c hc
  obtain ⟨rest, hrest⟩ := List.head?_eq_some_iff.1 hc
  have hnot := List.head_dropWhile_not p (l := l) (by simp [hrest])
  simpa [hrest] using hnot

theorem rdropWhile_append {p : Char → Bool} {b : List Char} (hb : ∃ c ∈ b, p c = false)
    (a : List Char) : (a ++ b).rdropWhile p = a ++ b.rdropWhile p := by
  have hne : ¬(b.reverse.dropWhile p).isEmpty = true := by
    simpa [List.isEmpty_iff] using hb
  rw [List.rdropWhile, List.reverse_append, List.dropWhile_append, if_neg hne,
    List.reverse_append, List.reverse_reverse, List.rdropWhile]

theorem isBlank_of_isRemoved {c : Char} (h : isRemoved c = true) : isBlank c = true := by
  simp only [isRemoved, Bool.or_eq_true, beq_iff_eq] at h
  rcases h with (rfl | rfl) | rfl <;> decide

theorem clean_append (a b : List Char) : clean (a ++ b) = clean a ++ clean b :=
  List.filter_append _ _

theorem clean_eq_self {text : List Char} (h : ∀ c ∈ text, isRemoved c = false) :
    clean text = text := by
  rw [clean, List.filter_eq_self]
  simpa using h

/-- Only the outer ends of two texts are stripped. -/
theorem prepare_append {a b : List Char} (ha : ∃ c ∈ a, isBlank c = false)
    (hb : ∃ c ∈ b, isBlank c = false) :
    prepare (a ++ b) = clean (a.dropWhile isBlank) ++ clean (b.rdropWhile isBlank) := by
  have hleft : (a ++ b).dropWhile isBlank = a.dropWhile isBlank ++ b := by
    rw [List.dropWhile_append, if_neg]
    simpa [List.isEmpty_iff] using ha
  rw [prepare, hleft, rdropWhile_append hb, clean_append]

/-- What stands before the last `:` that a scheme may end at. -/
theorem splitScheme_eq_some {text scheme rest : List Char} :
    splitScheme text = some (scheme, rest) ↔ ∃ letters : List Char,
      text = letters ++ ':' :: rest ∧ scheme = letters.map Char.toLower ∧
        letters.head?.any Char.isAlpha = true ∧ ∀ c ∈ letters, isSchemeChar c = true := by
  have hcolon : isSchemeChar ':' = false := by decide
  constructor
  · intro h
    unfold splitScheme at h
    split_ifs at h with halpha
    split at h
    · rename_i letters rest' hspan
      obtain ⟨rfl, rfl⟩ := by simpa using h
      rw [List.span_eq_takeWhile_dropWhile, Prod.mk.injEq] at hspan
      have htext := (List.takeWhile_append_dropWhile (p := isSchemeChar) (l := text)).symm
      rw [hspan.1, hspan.2] at htext
      refine ⟨letters, htext, rfl, ?_, fun c hc => ?_⟩
      · cases letters with
        | nil =>
            have hcolon : ':'.isAlpha = false := by decide
            simp [htext, hcolon] at halpha
        | cons c letters => simpa [htext] using halpha
      · rw [← hspan.1] at hc
        exact List.mem_takeWhile_imp hc
    · cases h
  · rintro ⟨letters, rfl, rfl, halpha, hchars⟩
    obtain ⟨htake, hdrop⟩ := cut_append (b := ':' :: rest) hchars (by simpa using hcolon)
    have hhead : (letters ++ ':' :: rest).head?.any Char.isAlpha = true := by
      cases letters with
      | nil => cases halpha
      | cons c letters => exact halpha
    rw [splitScheme, if_pos hhead, List.span_eq_takeWhile_dropWhile, htake, hdrop]
    rfl

/-! ### Text after an authority -/

/-- A text that may follow an authority. -/
def Follows (text : List Char) : Prop := ∀ c ∈ text.head?, isEnd c = true

/-- A URL is read from its authority and the text after it. -/
theorem parseSpecial_of_authority (r : Rules H) (scheme : List Char)
    {slashes authority after : List Char} (hslashes : ∀ c ∈ slashes, isSlash c = true)
    (hne : authority ≠ []) (hauthority : ∀ c ∈ authority, isEnd c = false)
    (hafter : Follows after) :
    r.parseSpecial scheme (slashes ++ (authority ++ after)) =
      (r.parseAuthority scheme authority).map fun a =>
        { scheme, username := a.username, password := a.password, host := some a.host, port := a.port
          path := r.parsePath [] (splitTail after).1.tail, query := (splitTail after).2.1
          fragment := (splitTail after).2.2 } := by
  have hhead : ∀ c ∈ (authority ++ after).head?, isSlash c = false := by
    obtain ⟨c, rest, rfl⟩ := List.exists_cons_of_ne_nil hne
    have hc := hauthority c List.mem_cons_self
    simp only [isEnd, Bool.or_eq_false_iff] at hc
    simpa using hc.1.1
  have htext := (cut_append hslashes hhead).2
  obtain ⟨htake, hdrop⟩ := cut_append (p := fun c => !isEnd c) (by simpa using hauthority)
    (show ∀ c ∈ after.head?, (!isEnd c) = false by simpa [Follows] using hafter)
  simp only [Rules.parseSpecial, htext, htake, hdrop]

/-- The parts of the text of a URL. -/
theorem parts_of_parseSpecial {r : Rules H} {scheme rest : List Char} {u : Record H}
    (h : r.parseSpecial scheme rest = some u) : ∃ slashes authority after a,
      rest = slashes ++ (authority ++ after) ∧ (∀ c ∈ slashes, isSlash c = true) ∧
      authority ≠ [] ∧ (∀ c ∈ authority, isEnd c = false) ∧ Follows after ∧
      r.parseAuthority scheme authority = some a ∧ u.scheme = scheme ∧ u.host = some a.host ∧
      u.port = a.port := by
  refine ⟨rest.takeWhile isSlash, (rest.dropWhile isSlash).takeWhile fun c => !isEnd c,
    (rest.dropWhile isSlash).dropWhile fun c => !isEnd c, ?_⟩
  simp only [Rules.parseSpecial, Option.map_eq_some_iff] at h
  obtain ⟨a, ha, rfl⟩ := h
  refine ⟨a, by simp, fun c hc => List.mem_takeWhile_imp hc, fun hnil => ?_, fun c hc => ?_, ?_, ha,
    rfl, rfl, rfl⟩
  · rw [hnil] at ha
    cases ha
  · simpa using List.mem_takeWhile_imp hc
  · intro c hc
    simpa using head_dropWhile _ c hc

/-- A URL of a special scheme is read by `parseSpecial`. -/
theorem Rules.parse_special (r : Rules H) {text : List Char} {u : Record H}
    (h : r.parse text = some u) (hspecial : (defaultPort u.scheme).isSome = true) :
    ∃ rest, splitScheme (prepare text) = some (u.scheme, rest) ∧
      r.parseSpecial u.scheme rest = some u := by
  unfold Rules.parse at h
  cases hsplit : splitScheme (prepare text) with
  | none =>
      rw [hsplit] at h
      cases h
  | some p =>
      obtain ⟨scheme, rest⟩ := p
      rw [hsplit] at h
      dsimp only at h
      split_ifs at h with hknown
      · obtain ⟨-, -, -, a, -, -, -, -, -, -, hscheme, -⟩ := parts_of_parseSpecial h
        rw [hscheme]
        exact ⟨rest, rfl, h⟩
      · rw [r.other_scheme _ _ _ h] at hspecial
        exact absurd hspecial hknown

/-! ### Blanks after an authority -/

theorem splitPort_of_not_mem {text : List Char} (h : ':' ∉ text) :
    ∀ inside, splitPort inside text = (text, none) := by
  induction text with
  | nil =>
      intro inside
      rfl
  | cons c text ih =>
      intro inside
      rw [List.mem_cons, not_or] at h
      rw [splitPort, if_neg (fun hc => h.1 hc.1.symm), ih h.2]

theorem splitPort_append {tail : List Char} (htail : ':' ∉ tail) (text : List Char) :
    ∀ inside,
      ((splitPort inside text).2 = none →
        splitPort inside (text ++ tail) = ((splitPort inside text).1 ++ tail, none)) ∧
      ∀ port, (splitPort inside text).2 = some port →
        splitPort inside (text ++ tail) = ((splitPort inside text).1, some (port ++ tail)) := by
  induction text with
  | nil =>
      intro inside
      refine ⟨fun _ => splitPort_of_not_mem htail inside, fun port hport => ?_⟩
      cases hport
  | cons c text ih =>
      intro inside
      rw [List.cons_append, splitPort, splitPort]
      by_cases hc : c = ':' ∧ inside = false
      · rw [if_pos hc, if_pos hc]
        refine ⟨fun hnone => absurd hnone (by simp), fun port hport => ?_⟩
        rw [← Option.some.inj hport]
      · obtain ⟨hnone, hsome⟩ := ih (if c = '[' then true else if c = ']' then false else inside)
        rw [if_neg hc, if_neg hc]
        refine ⟨fun h => ?_, fun port h => ?_⟩
        · rw [hnone h]
          rfl
        · rw [hsome port h]

theorem splitUserinfo_append {tail : List Char} (htail : '@' ∉ tail) (text : List Char) :
    splitUserinfo (text ++ tail) = ((splitUserinfo text).1, (splitUserinfo text).2 ++ tail) := by
  have hall : ∀ c ∈ tail.reverse, decide (c ≠ '@') = true := by
    intro c hc
    simpa using fun h : c = '@' => htail (h ▸ List.mem_reverse.1 hc)
  have hdrop : (text ++ tail).rdropWhile (· ≠ '@') = text.rdropWhile (· ≠ '@') := by
    rw [List.rdropWhile, List.reverse_append, List.dropWhile_append_of_pos hall, List.rdropWhile]
  have htake : (text ++ tail).rtakeWhile (· ≠ '@') = text.rtakeWhile (· ≠ '@') ++ tail := by
    rw [List.rtakeWhile, List.reverse_append, List.takeWhile_append_of_pos hall,
      List.reverse_append, List.reverse_reverse, List.rtakeWhile]
  unfold splitUserinfo
  by_cases h : '@' ∈ text
  · rw [if_pos h, if_pos (List.mem_append_left _ h), hdrop, htake]
  · rw [if_neg h, if_neg (by simp [h, htail])]

theorem parsePort_blank {scheme port tail : List Char} (hne : tail ≠ [])
    (htail : ∀ c ∈ tail, isBlank c = true) : parsePort scheme (some (port ++ tail)) = none := by
  obtain ⟨c, rest, rfl⟩ := List.exists_cons_of_ne_nil hne
  have hdigit : c.isDigit = false := by
    have hblank := htail c List.mem_cons_self
    simp only [isBlank, decide_eq_true_eq] at hblank
    simp only [Char.isDigit, Bool.and_eq_false_iff, decide_eq_false_iff_not, ge_iff_le,
      UInt32.le_iff_toNat_le, not_le]
    have hcode : c.val.toNat = c.toNat := rfl
    have hzero : '0'.val.toNat = 48 := rfl
    left
    omega
  have hall : (port ++ c :: rest).all Char.isDigit = false := by simp [hdigit]
  cases hport : port ++ c :: rest with
  | nil => simp at hport
  | cons d digits =>
      rw [hport] at hall
      rw [parsePort, if_neg (by simp [hall])]

/-- Blanks after an authority make it invalid. -/
theorem parseAuthority_blanks {r : Rules H} {scheme authority tail : List Char} (hne : tail ≠ [])
    (htail : ∀ c ∈ tail, isBlank c = true) : r.parseAuthority scheme (authority ++ tail) = none := by
  have hnot (c : Char) (hc : isBlank c = false) : c ∉ tail := by
    intro hmem
    rw [htail c hmem] at hc
    cases hc
  have huser := splitUserinfo_append (hnot '@' (by decide)) authority
  obtain ⟨hnone, hsome⟩ :=
    splitPort_append (hnot ':' (by decide)) (splitUserinfo authority).2 false
  unfold Rules.parseAuthority
  cases hport : (splitPort false (splitUserinfo authority).2).2 with
  | none =>
      simp only [huser, hnone hport, List.append_eq_nil_iff, hne, and_false, if_false]
      cases hhost : r.parseHost ((splitPort false (splitUserinfo authority).2).1 ++ tail) with
      | none => rfl
      | some host =>
          obtain ⟨c, rest, rfl⟩ := List.exists_cons_of_ne_nil hne
          have hclean := r.host_clean _ _ hhost c (List.mem_append_right _ List.mem_cons_self)
          rw [htail c List.mem_cons_self] at hclean
          cases hclean
  | some port =>
      simp only [huser, hsome port hport, parsePort_blank hne htail, Option.map_none]
      split_ifs
      · rfl
      · exact Option.bind_fun_none _

/-! ### A path after a URL

A path is appended to a URL without its last slashes.  What was stripped from the end of the URL
is then in the middle of the text. -/

/-- The end of a text that is stripped, as it is in the middle of one. -/
def residue (text : List Char) : List Char := clean (text.rtakeWhile isBlank)

/-- The authority after the `:` is not the end of the text. -/
def Closed (rest : List Char) : Prop := ∃ c ∈ rest.dropWhile isSlash, isEnd c = true

instance (rest : List Char) : Decidable (Closed rest) := List.decidableBEx _ _

/-- A text without its last slashes. -/
def trimSlashes (text : List Char) : List Char := text.rdropWhile (· == '/')

theorem residue_blank {text : List Char} {c : Char} (h : c ∈ residue text) : isBlank c = true :=
  List.mem_rtakeWhile_imp (List.mem_filter.1 h).1

theorem isEnd_of_isBlank {c : Char} (h : isBlank c = true) : isEnd c = false := by
  have hne (d : Char) (hd : isBlank d = false) : c ≠ d := by
    intro hcd
    rw [hcd, hd] at h
    cases h
  simp [isEnd, isSlash, hne '/' (by decide), hne '\\' (by decide), hne '?' (by decide),
    hne '#' (by decide)]

/-- Both ends of a text are stripped apart from each other. -/
theorem rtakeWhile_dropWhile {p : Char → Bool} {l : List Char} (h : ∃ c ∈ l, p c = false) :
    (l.dropWhile p).rtakeWhile p = l.rtakeWhile p := by
  have hnil : l.dropWhile p ≠ [] := by
    rw [Ne, List.dropWhile_eq_nil_iff]
    simpa using h
  have hlength : ¬((l.dropWhile p).reverse.takeWhile p).length = (l.dropWhile p).reverse.length := by
    intro hlength
    have hall := List.takeWhile_eq_self_iff.1 ((List.takeWhile_prefix p).eq_of_length hlength)
    have hhead := List.head_dropWhile_not p (l := l) hnil
    rw [hall _ (List.mem_reverse.2 (List.head_mem hnil))] at hhead
    cases hhead
  conv_rhs => rw [← List.takeWhile_append_dropWhile (p := p) (l := l)]
  rw [List.rtakeWhile, List.rtakeWhile, List.reverse_append, List.takeWhile_append,
    if_neg hlength]

/-- What is left of a text when its last slashes are removed. -/
theorem prepare_trimSlashes {text : List Char} (h : ∃ c ∈ trimSlashes text, isBlank c = false) :
    ∃ slashes, (∀ c ∈ slashes, c = '/') ∧ (slashes = [] ∨ residue text = []) ∧
      clean ((trimSlashes text).dropWhile isBlank) ++ slashes = prepare text ++ residue text := by
  have htext : trimSlashes text ++ text.rtakeWhile (· == '/') = text :=
    List.rdropWhile_append_rtakeWhile
  have hslashes : ∀ c ∈ text.rtakeWhile (· == '/'), c = '/' := by
    intro c hc
    simpa using List.mem_rtakeWhile_imp hc
  refine ⟨text.rtakeWhile (· == '/'), hslashes, ?_⟩
  cases hlast : text.rtakeWhile (· == '/') with
  | nil =>
      rw [hlast, List.append_nil] at htext
      rw [htext] at h ⊢
      refine ⟨.inl rfl, ?_⟩
      rw [List.append_nil, prepare, residue, ← rtakeWhile_dropWhile h, ← clean_append,
        List.rdropWhile_append_rtakeWhile]
  | cons c rest =>
      rw [hlast] at hslashes htext
      have hblank : isBlank '/' = false := by decide
      have hend (l : List Char) (hl : l ≠ []) (hmem : l.getLast hl ∈ c :: rest) :
          ¬isBlank (l.getLast hl) = true := by
        rw [hslashes _ hmem, hblank]
        simp
      have hkeep : (c :: rest).rdropWhile isBlank = c :: rest :=
        List.rdropWhile_eq_self_iff.2 fun hne => hend _ hne (List.getLast_mem hne)
      have hclean : clean (c :: rest) = c :: rest := by
        refine clean_eq_self fun d hd => ?_
        rw [hslashes d hd]
        decide
      have hresidue : residue text = [] := by
        have hnil : text.rtakeWhile isBlank = [] := by
          refine List.rtakeWhile_eq_nil_iff.2 fun hne => hend _ hne ?_
          rw [List.getLast_congr hne (by simp) htext.symm,
            List.getLast_append_of_ne_nil _ (List.cons_ne_nil c rest)]
          exact List.getLast_mem _
        rw [residue, hnil]
        rfl
      refine ⟨.inr hresidue, ?_⟩
      have hprepare := prepare_append h (b := c :: rest)
        ⟨c, List.mem_cons_self, hslashes c List.mem_cons_self ▸ hblank⟩
      rw [htext, hkeep, hclean] at hprepare
      rw [hprepare, hresidue, List.append_nil]

/-- A text ends before the slashes if its last character is none. -/
theorem exists_of_append_slashes {q slashes a b : List Char} (hslashes : ∀ c ∈ slashes, c = '/')
    (hne : a ≠ []) (hlast : a.getLast hne ≠ '/') (h : q ++ slashes = a ++ b) :
    ∃ b', q = a ++ b' ∧ b' ++ slashes = b := by
  rcases List.append_eq_append_iff.1 h with ⟨a', ha, hs⟩ | ⟨b', hq, hb⟩
  · cases a' with
    | nil => exact ⟨[], by simpa using ha.symm, by simpa using hs⟩
    | cons c a' =>
        have hmem : a.getLast hne ∈ slashes := by
          rw [hs]
          refine List.mem_append_left _ ?_
          rw [List.getLast_congr hne (by simp) ha,
            List.getLast_append_of_ne_nil _ (List.cons_ne_nil c a')]
          exact List.getLast_mem _
        exact absurd (hslashes _ hmem) hlast
  · exact ⟨b', hq, hb.symm⟩

theorem closed_iff {slashes authority after : List Char} (hslashes : ∀ c ∈ slashes, isSlash c = true)
    (hne : authority ≠ []) (hauthority : ∀ c ∈ authority, isEnd c = false) (hafter : Follows after) :
    Closed (slashes ++ (authority ++ after)) ↔ after ≠ [] := by
  have hhead : ∀ c ∈ (authority ++ after).head?, isSlash c = false := by
    obtain ⟨c, rest, rfl⟩ := List.exists_cons_of_ne_nil hne
    have hc := hauthority c List.mem_cons_self
    simp only [isEnd, Bool.or_eq_false_iff] at hc
    simpa using hc.1.1
  rw [Closed, (cut_append hslashes hhead).2]
  cases after with
  | nil => simpa using hauthority
  | cons c after =>
      refine iff_of_true ⟨c, by simp, hafter c rfl⟩ (List.cons_ne_nil c after)

theorem rdropWhile_cons {p : Char → Bool} {c : Char} (hc : p c = false) (l : List Char) :
    (c :: l).rdropWhile p = c :: l.rdropWhile p := by
  have hlast : [c].dropWhile p = [c] := List.dropWhile_cons_of_neg (by simp [hc])
  rw [List.rdropWhile, List.reverse_cons, List.dropWhile_append, hlast, List.rdropWhile]
  split_ifs with h
  · rw [List.isEmpty_iff.1 h]
    rfl
  · simp

theorem isAlpha_char {c : Char} (h : c.isAlpha = true) : isBlank c = false ∧ c ≠ '/' := by
  have halphanum : c.isAlphanum = true := by simp [Char.isAlphanum, h]
  have hcode := alphanum_code halphanum
  refine ⟨?_, alphanum_ne halphanum (by decide)⟩
  simp only [isBlank, decide_eq_false_iff_not]
  omega

/-- The scheme is not stripped. -/
theorem exists_of_splitScheme {text : List Char} {p : List Char × List Char}
    (h : splitScheme (prepare text) = some p) : ∃ c ∈ trimSlashes text, isBlank c = false := by
  obtain ⟨letters, hletters, -, halpha, -⟩ := splitScheme_eq_some.1 h
  cases letters with
  | nil => cases halpha
  | cons c letters =>
      obtain ⟨hblank, hslash⟩ := isAlpha_char halpha
      refine ⟨c, ?_, hblank⟩
      have hmem : c ∈ prepare text := by
        rw [hletters]
        simp
      have hmem : c ∈ text := (List.dropWhile_sublist _).subset
        ((List.rdropWhile_prefix isBlank _).subset (List.mem_filter.1 hmem).1)
      rw [← List.rdropWhile_append_rtakeWhile (p := (· == '/')) (l := text)] at hmem
      refine (List.mem_append.1 hmem).resolve_right fun hend => hslash ?_
      simpa using List.mem_rtakeWhile_imp hend

/-- The text up to the authority stays when a path is appended. -/
theorem prepare_path {text letters slashes authority after : List Char}
    (hbase : ∃ c ∈ trimSlashes text, isBlank c = false)
    (htext : prepare text = letters ++ ':' :: (slashes ++ (authority ++ after)))
    (hne : authority ≠ []) (hauthority : ∀ c ∈ authority, isEnd c = false) :
    ∃ after' removed, (∀ c ∈ removed, c = '/') ∧ (removed = [] ∨ residue text = []) ∧
      after' ++ removed = after ++ residue text ∧
      ∀ tail, prepare (trimSlashes text ++ '/' :: tail) = letters ++ ':' ::
        (slashes ++ (authority ++ (after' ++ '/' :: clean (tail.rdropWhile isBlank)))) := by
  obtain ⟨removed, hremoved, hresidue, hkept⟩ := prepare_trimSlashes hbase
  have hlast : (letters ++ ':' :: slashes ++ authority).getLast (by simp) ≠ '/' := by
    intro hslash
    rw [List.getLast_append_of_ne_nil _ hne] at hslash
    have hend := hauthority _ (List.getLast_mem hne)
    rw [hslash] at hend
    revert hend
    decide
  have hkept : clean ((trimSlashes text).dropWhile isBlank) ++ removed =
      (letters ++ ':' :: slashes ++ authority) ++ (after ++ residue text) := by
    rw [hkept, htext]
    simp
  obtain ⟨after', hq, hafter'⟩ := exists_of_append_slashes hremoved (by simp) hlast hkept
  refine ⟨after', removed, hremoved, hresidue, hafter', fun tail => ?_⟩
  have hslash : isBlank '/' = false := by decide
  have hpath : clean ('/' :: tail.rdropWhile isBlank) = '/' :: clean (tail.rdropWhile isBlank) := rfl
  rw [prepare_append hbase ⟨'/', List.mem_cons_self, hslash⟩, hq, rdropWhile_cons hslash, hpath]
  simp

/-- **A path after a URL keeps its scheme, host and port, unless blanks come into the
authority.** -/
theorem Rules.parse_trimSlashes (r : Rules H) {text scheme rest : List Char} {u : Record H}
    (hscheme : splitScheme (prepare text) = some (scheme, rest))
    (hspecial : (defaultPort scheme).isSome = true) (hu : r.parseSpecial scheme rest = some u)
    (tail : List Char) :
    (residue text = [] ∨ Closed rest → ∃ v, r.parse (trimSlashes text ++ '/' :: tail) = some v ∧
      v.scheme = u.scheme ∧ v.host = u.host ∧ v.port = u.port) ∧
    (¬(residue text = [] ∨ Closed rest) → r.parse (trimSlashes text ++ '/' :: tail) = none) := by
  have hbase := exists_of_splitScheme hscheme
  obtain ⟨letters, hletters, rfl, halpha, hchars⟩ := splitScheme_eq_some.1 hscheme
  obtain ⟨slashes, authority, after, a, rfl, hslashes, hne, hauthority, hafter, ha, hscheme', hhost,
    hport⟩ := parts_of_parseSpecial hu
  obtain ⟨after', removed, hremoved, hresidue, hsplit, hprepare⟩ :=
    prepare_path hbase hletters hne hauthority
  have hparse : r.parse (trimSlashes text ++ '/' :: tail) = r.parseSpecial (letters.map Char.toLower)
      (slashes ++ (authority ++ (after' ++ '/' :: clean (tail.rdropWhile isBlank)))) := by
    rw [Rules.parse, hprepare, splitScheme_eq_some.2 ⟨letters, rfl, rfl, halpha, hchars⟩]
    simp only [hspecial, if_true]
  rw [hparse, closed_iff hslashes hne hauthority hafter]
  constructor
  · intro hcond
    have hfollows : Follows (after' ++ '/' :: clean (tail.rdropWhile isBlank)) := by
      cases after' with
      | nil =>
          intro c hc
          rw [← Option.some.inj hc]
          decide
      | cons c after' =>
          cases after with
          | nil =>
              rw [hcond.resolve_right fun h => h rfl] at hsplit
              cases hsplit
          | cons d after =>
              obtain ⟨rfl, -⟩ := List.cons.inj hsplit
              exact hafter
    rw [parseSpecial_of_authority r _ hslashes hne hauthority hfollows, ha]
    exact ⟨_, rfl, hscheme'.symm, hhost.symm, hport.symm⟩
  · intro hcond
    rw [not_or, not_not] at hcond
    obtain ⟨hne', rfl⟩ := hcond
    have hafter' : after' = residue text := by
      rw [hresidue.resolve_right hne', List.append_nil] at hsplit
      exact hsplit
    have hblanks : ∀ c ∈ authority ++ residue text, isEnd c = false := by
      intro c hc
      rcases List.mem_append.1 hc with hc | hc
      · exact hauthority c hc
      · exact isEnd_of_isBlank (residue_blank hc)
    have hfollows : Follows ('/' :: clean (tail.rdropWhile isBlank)) := by
      intro c hc
      rw [← Option.some.inj hc]
      decide
    rw [hafter', ← List.append_assoc authority, parseSpecial_of_authority r _ hslashes (by simp [hne]) hblanks
      hfollows, parseAuthority_blanks hne' fun c hc => residue_blank hc]
    rfl

/-- A start without blanks stays. -/
theorem prepare_of_start {a : List Char} (hne : a ≠ []) (ha : ∀ c ∈ a, isBlank c = false)
    (tail : List Char) : prepare (a ++ tail) = a ++ clean (tail.rdropWhile isBlank) := by
  have hleft : (a ++ tail).dropWhile isBlank = a ++ tail := by
    obtain ⟨c, a, rfl⟩ := List.exists_cons_of_ne_nil hne
    exact List.dropWhile_cons_of_neg (by simp [ha c List.mem_cons_self])
  have hright : (a ++ tail).rdropWhile isBlank = a ++ tail.rdropWhile isBlank := by
    clear hne hleft
    induction a with
    | nil => rfl
    | cons c a ih =>
        rw [List.cons_append, rdropWhile_cons (ha c List.mem_cons_self),
          ih fun d hd => ha d (List.mem_cons_of_mem _ hd), List.cons_append]
  have hclean : clean a = a := by
    refine clean_eq_self fun c hc => ?_
    cases hremoved : isRemoved c with
    | false => rfl
    | true =>
        have hblank := isBlank_of_isRemoved hremoved
        rw [ha c hc] at hblank
        cases hblank
  rw [prepare, hleft, hright, clean_append, hclean]

/-! ### References on the same site -/

/-- A path from the root keeps everything before it. -/
theorem Rules.resolve_path (r : Rules H) (base : Record H) {text : List Char}
    (hclean : ∀ c ∈ text, isRemoved c = false) (hnext : text.head?.any isSlash = false) :
    ∃ u, r.resolve base ('/' :: text) = some u ∧ u.scheme = base.scheme ∧
      u.username = base.username ∧ u.password = base.password ∧ u.host = base.host ∧
      u.port = base.port := by
  have hslash : isBlank '/' = false := by decide
  have hkept : ∀ c ∈ text.rdropWhile isBlank, isRemoved c = false :=
    fun c hc => hclean c ((List.rdropWhile_prefix isBlank _).subset hc)
  have hprepare : prepare ('/' :: text) = '/' :: text.rdropWhile isBlank := by
    rw [prepare, List.dropWhile_cons_of_neg (by simp [hslash]), rdropWhile_cons hslash]
    refine clean_eq_self fun c hc => ?_
    rcases List.mem_cons.1 hc with rfl | hc
    · decide
    · exact hkept c hc
  have hscheme : splitScheme ('/' :: text.rdropWhile isBlank) = none := by
    have halpha : '/'.isAlpha = false := by decide
    simp [splitScheme, halpha]
  obtain ⟨rest, hpath, hrest⟩ : ∃ rest, (splitTail ('/' :: text.rdropWhile isBlank)).1 = '/' :: rest ∧
      rest <+: text := by
    refine ⟨((text.rdropWhile isBlank).takeWhile (· ≠ '#')).takeWhile (· ≠ '?'), by simp [splitTail], ?_⟩
    exact ((List.takeWhile_prefix _).trans (List.takeWhile_prefix _)).trans
      (List.rdropWhile_prefix _ _)
  have hrest : rest.head?.any isSlash = false := by
    obtain ⟨more, rfl⟩ := hrest
    cases rest with
    | nil => rfl
    | cons c rest => simpa using hnext
  rw [Rules.resolve, hprepare, hscheme]
  have hisSlash : isSlash '/' = true := by decide
  simp only [Rules.relative, hpath, hisSlash, hrest, if_true, Bool.false_eq_true, if_false]
  exact ⟨_, rfl, rfl, rfl, rfl, rfl, rfl⟩

end SharpOauth.UrlStandard
