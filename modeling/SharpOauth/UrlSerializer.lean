import SharpOauth.UrlStandard

/-! # Serializing a URL

The serializer of the URL standard for a special URL, and what the parser makes of its text.

A text that was encoded for a place is left alone when it is encoded for it again
(`encode_of_plain`), a path that the parser built has no dot segment left to resolve
(`walk_plain`), and a host is read back from its own text (`HostWriter`).  So a URL that is
`Canonical`, as every parsed one is (`canonical_of_parse`), is what its text parses to
(`Rules.parse_serialize`). -/

namespace SharpOauth.UrlStandard

variable {H : Type}

/-! ### Encoded text -/

/-- The characters of an escape. -/
theorem mem_escape {b : UInt8} {c : Char} (h : c ∈ escape b) : c = '%' ∨ c.isAlphanum = true := by
  have hhex : ∀ n < 16, (hexDigit n).isAlphanum = true := by decide
  have hb : b.toNat < 256 := b.toNat_lt
  simp only [escape, List.mem_cons, List.not_mem_nil, or_false] at h
  rcases h with h | h | h
  · exact .inl h
  · exact .inr (h ▸ hhex _ (by omega))
  · exact .inr (h ▸ hhex _ (by omega))

/-- A character of an encoded text is one of the text outside the set, or of an escape. -/
theorem mem_encode {set : Char → Bool} {text : List Char} {c : Char} (h : c ∈ encode set text) :
    (c ∈ text ∧ set c = false) ∨ c = '%' ∨ c.isAlphanum = true := by
  obtain ⟨d, hd, hc⟩ := List.mem_flatMap.1 h
  split_ifs at hc with hset
  · obtain ⟨b, -, hc⟩ := List.mem_flatMap.1 hc
    exact .inr (mem_escape hc)
  · rw [List.mem_singleton.1 hc]
    exact .inl ⟨hd, by simpa using hset⟩

/-- An encoded text has no character of the set. -/
theorem encode_plain {set : Char → Bool} (hset : ∀ c, c = '%' ∨ c.isAlphanum = true → set c = false)
    {text : List Char} {c : Char} (h : c ∈ encode set text) : set c = false := by
  cases mem_encode h with
  | inl h => exact h.2
  | inr h => exact hset c h

theorem encode_of_plain {set : Char → Bool} {text : List Char} (h : ∀ c ∈ text, set c = false) :
    encode set text = text := by
  induction text with
  | nil => rfl
  | cons c text ih =>
      have hrest := ih fun d hd => h d (List.mem_cons_of_mem _ hd)
      rw [encode] at hrest ⊢
      rw [List.flatMap_cons, hrest, h c List.mem_cons_self]
      rfl

/-! ### Characters -/

theorem isEnd_escape {c : Char} (h : c = '%' ∨ c.isAlphanum = true) : isEnd c = false := by
  cases h with
  | inl h => rw [h]; decide
  | inr h =>
      simp [isEnd, isSlash, alphanum_ne h (d := '/') (by decide), alphanum_ne h (d := '\\') (by decide),
        alphanum_ne h (d := '?') (by decide), alphanum_ne h (d := '#') (by decide)]

theorem querySet_escape {c : Char} (h : c = '%' ∨ c.isAlphanum = true) : querySet c = false := by
  rw [querySet, controlSet_escape h, contains_escape (by decide) h, Bool.or_false]

theorem fragmentSet_escape {c : Char} (h : c = '%' ∨ c.isAlphanum = true) : fragmentSet c = false := by
  rw [fragmentSet, controlSet_escape h, contains_escape (by decide) h, Bool.or_false]

theorem Rules.userinfoSet_escape (r : Rules H) {c : Char} (h : c = '%' ∨ c.isAlphanum = true) :
    userinfoSet r.pathSet c = false := by
  rw [userinfoSet, r.pathSet_escape c h, contains_escape (by decide) h, Bool.or_false]

theorem visible_of_control {c : Char} (hcontrol : controlSet c = false) (hspace : c ≠ ' ') :
    isBlank c = false := by
  simp only [controlSet, Bool.or_eq_false_iff, decide_eq_false_iff_not] at hcontrol
  have hcode : c.toNat ≠ 32 := fun hcode => hspace (Char.toNat_inj.1 hcode)
  simp only [isBlank, decide_eq_false_iff_not]
  omega

/-- A character outside the control characters and some others. -/
theorem not_mem_of_set {c d : Char} {others : List Char}
    (h : (controlSet c || others.contains c) = false) (hd : others.contains d = true) : c ≠ d := by
  rintro rfl
  rw [hd, Bool.or_true] at h
  cases h

/-- A character of a query is visible. -/
theorem querySet_visible {c : Char} (h : querySet c = false) : isBlank c = false ∧ c ≠ '#' :=
  ⟨visible_of_control (Bool.or_eq_false_iff.1 h).1 (not_mem_of_set h (by decide)),
    not_mem_of_set h (by decide)⟩

theorem fragmentSet_visible {c : Char} (h : fragmentSet c = false) : isBlank c = false :=
  visible_of_control (Bool.or_eq_false_iff.1 h).1 (not_mem_of_set h (by decide))

theorem Rules.pathSet_visible (r : Rules H) {c : Char} (h : r.pathSet c = false) :
    isBlank c = false := by
  have hnot (hc : controlSet c = true ∨ c = ' ') : False := by
    rw [r.pathSet_control c hc] at h
    cases h
  exact visible_of_control (by simpa using fun hc => hnot (.inl hc)) fun hc => hnot (.inr hc)

/-! ### Paths -/

/-- The parts of a list are made of its elements, without separators. -/
theorem mem_splitOnP {p : Char → Bool} (l : List Char) :
    ∀ part ∈ l.splitOnP p, ∀ c ∈ part, c ∈ l ∧ p c = false := by
  induction l with
  | nil =>
      intro part hpart
      rw [List.splitOnP_nil, List.mem_singleton] at hpart
      simp [hpart]
  | cons x l ih =>
      intro part hpart c hc
      obtain ⟨first, rest, hsplit⟩ := List.exists_cons_of_ne_nil (List.splitOnP_ne_nil p l)
      rw [List.splitOnP_cons_eq_if_modifyHead, hsplit] at hpart
      rw [hsplit] at ih
      split_ifs at hpart with hx
      · rw [List.mem_cons] at hpart
        cases hpart with
        | inl hpart =>
            rw [hpart] at hc
            cases hc
        | inr hpart => exact (ih part hpart c hc).imp_left (List.mem_cons_of_mem _)
      · rw [List.modifyHead_cons, List.mem_cons] at hpart
        cases hpart with
        | inl hpart =>
            rw [hpart, List.mem_cons] at hc
            cases hc with
            | inl hc =>
                rw [hc]
                exact ⟨List.mem_cons_self, by simpa using hx⟩
            | inr hc => exact (ih first List.mem_cons_self c hc).imp_left (List.mem_cons_of_mem _)
        | inr hpart =>
            exact (ih part (List.mem_cons_of_mem _ hpart) c hc).imp_left (List.mem_cons_of_mem _)

/-- A segment that the parser leaves alone. -/
structure PlainSegment (r : Rules H) (segment : List Char) : Prop where
  chars : ∀ c ∈ segment, r.pathSet c = false ∧ isEnd c = false
  notSingle : isSingleDot segment = false
  notDouble : isDoubleDot segment = false

/-- A walk goes through segments that are no dots. -/
theorem mem_walk {segments : List (List Char)} : ∀ {directory : List (List Char)} {s : List Char},
    s ∈ walk directory segments →
      s ∈ directory ∨ s = [] ∨ s ∈ segments ∧ isSingleDot s = false ∧ isDoubleDot s = false := by
  induction segments with
  | nil => exact fun h => .inl h
  | cons segment rest ih =>
      intro directory s h
      cases rest with
      | nil =>
          rw [walk] at h
          split_ifs at h with hdouble hsingle
          · rw [List.mem_append, List.mem_singleton] at h
            exact h.imp (List.dropLast_subset _ ·) .inl
          · rw [List.mem_append, List.mem_singleton] at h
            exact h.imp_right .inl
          · rw [List.mem_append, List.mem_singleton] at h
            refine h.imp_right fun hs => .inr ?_
            rw [hs]
            exact ⟨List.mem_cons_self, by simpa using hsingle, by simpa using hdouble⟩
      | cons next rest =>
          rw [walk] at h
          cases ih h with
          | inl hdirectory =>
              split_ifs at hdirectory with hdouble hsingle
              · exact .inl (List.dropLast_subset _ hdirectory)
              · exact .inl hdirectory
              · rw [List.mem_append, List.mem_singleton] at hdirectory
                refine hdirectory.imp_right fun hs => .inr ?_
                rw [hs]
                exact ⟨List.mem_cons_self, by simpa using hsingle, by simpa using hdouble⟩
          | inr hs => exact .inr (hs.imp_right fun hs => ⟨List.mem_cons_of_mem _ hs.1, hs.2⟩)

theorem walk_ne_nil {segments : List (List Char)} (hne : segments ≠ []) :
    ∀ directory, walk directory segments ≠ [] := by
  induction segments with
  | nil => exact absurd rfl hne
  | cons segment rest ih =>
      intro directory
      cases rest with
      | nil =>
          rw [walk]
          split_ifs <;> simp
      | cons next rest =>
          rw [walk]
          exact ih (List.cons_ne_nil next rest) _

/-- A walk along plain segments takes them all. -/
theorem walk_plain {r : Rules H} {segments : List (List Char)} (h : ∀ s ∈ segments, PlainSegment r s) :
    ∀ directory, walk directory segments = directory ++ segments := by
  induction segments with
  | nil => exact fun directory => (List.append_nil directory).symm
  | cons segment rest ih =>
      intro directory
      have hsegment := h segment List.mem_cons_self
      cases rest with
      | nil => rw [walk, hsegment.notDouble, hsegment.notSingle]; rfl
      | cons next rest =>
          rw [walk, hsegment.notDouble, hsegment.notSingle,
            ih fun s hs => h s (List.mem_cons_of_mem _ hs)]
          simp

theorem pathText_tail (s : List Char) (segments : List (List Char)) :
    (pathText (s :: segments)).tail = s ++ pathText segments := by
  rw [pathText, List.flatMap_cons, List.cons_append, List.tail_cons, pathText]

theorem splitOnP_pathText {segments : List (List Char)} :
    ∀ {s : List Char}, (∀ x ∈ s :: segments, ∀ c ∈ x, isSlash c = false) →
      (s ++ pathText segments).splitOnP isSlash = s :: segments := by
  induction segments with
  | nil =>
      intro s h
      rw [pathText, List.flatMap_nil, List.append_nil]
      exact List.splitOnP_eq_singleton (h s List.mem_cons_self)
  | cons t segments ih =>
      intro s h
      have htext : s ++ pathText (t :: segments) = s ++ '/' :: (t ++ pathText segments) := by
        rw [pathText, List.flatMap_cons, List.cons_append, pathText]
      rw [htext, List.splitOnP_append_cons_of_forall_mem (h s List.mem_cons_self) '/' (by decide),
        ih fun x hx => h x (List.mem_cons_of_mem _ hx)]

/-- The segments of a parsed path. -/
theorem Rules.parsePath_plain (r : Rules H) {text : List Char}
    (htext : ∀ c ∈ text, c ≠ '?' ∧ c ≠ '#') : ∃ segments : List (List Char), segments ≠ [] ∧
      r.parsePath [] text = pathText segments ∧ ∀ s ∈ segments, PlainSegment r s := by
  refine ⟨walk [] ((text.splitOnP isSlash).map (encode r.pathSet)),
    walk_ne_nil (by simp [List.splitOnP_ne_nil]) _, rfl, fun s hs => ?_⟩
  cases mem_walk hs with
  | inl hs => exact absurd hs List.not_mem_nil
  | inr hs =>
      cases hs with
      | inl hs =>
          rw [hs]
          exact ⟨fun c hc => absurd hc List.not_mem_nil, by decide, by decide⟩
      | inr hs =>
          obtain ⟨hmem, hsingle, hdouble⟩ := hs
          refine ⟨fun c hc => ?_, hsingle, hdouble⟩
          obtain ⟨part, hpart, rfl⟩ := List.mem_map.1 hmem
          refine ⟨encode_plain r.pathSet_escape hc, ?_⟩
          cases mem_encode hc with
          | inl hin =>
              obtain ⟨hin, hslash⟩ := mem_splitOnP text part hpart c hin.1
              simp [isEnd, hslash, htext c hin]
          | inr hescape => exact isEnd_escape hescape

/-- **A parsed path is parsed to itself.** -/
theorem Rules.parsePath_pathText (r : Rules H) {segments : List (List Char)} (hne : segments ≠ [])
    (h : ∀ s ∈ segments, PlainSegment r s) :
    r.parsePath [] (pathText segments).tail = pathText segments := by
  obtain ⟨s, rest, rfl⟩ := List.exists_cons_of_ne_nil hne
  have hslash : ∀ x ∈ s :: rest, ∀ c ∈ x, isSlash c = false := by
    intro x hx c hc
    have hend := ((h x hx).chars c hc).2
    simp only [isEnd, Bool.or_eq_false_iff] at hend
    exact hend.1.1
  have hencode : (s :: rest).map (encode r.pathSet) = s :: rest :=
    (List.map_congr_left fun x hx => encode_of_plain fun c hc => ((h x hx).chars c hc).1).trans
      (List.map_id _)
  rw [Rules.parsePath, pathText_tail, splitOnP_pathText hslash, hencode, walk_plain h,
    List.nil_append]

/-! ### Ports -/

/-- The text of a port. -/
def portText : Option ℕ → List Char
  | none => []
  | some n => ':' :: Nat.toDigits 10 n

theorem toDigits_isDigit {n : ℕ} {c : Char} (h : c ∈ Nat.toDigits 10 n) : c.isDigit = true :=
  Nat.isDigit_of_mem_toDigits (by omega) (by omega) h

theorem portText_visible {port : Option ℕ} :
    ∀ c ∈ portText port, isBlank c = false ∧ isEnd c = false ∧ c ≠ '@' := by
  intro c hc
  cases port with
  | none => cases hc
  | some n =>
      cases List.mem_cons.1 hc with
      | inl hc => rw [hc]; decide
      | inr hc =>
          have halphanum : c.isAlphanum = true := by simp [Char.isAlphanum, toDigits_isDigit hc]
          have hcode := alphanum_code halphanum
          refine ⟨?_, isEnd_escape (.inr halphanum), alphanum_ne halphanum (by decide)⟩
          simp only [isBlank, decide_eq_false_iff_not]
          omega

theorem portNumber_toDigits (n : ℕ) : portNumber (Nat.toDigits 10 n) = n :=
  Nat.ofDigitChars_ten_toDigits

/-- A port as a URL has it. -/
structure PlainPort (scheme : List Char) (n : ℕ) : Prop where
  bound : n ≤ 65535
  notDefault : defaultPort scheme ≠ some n

theorem parsePort_toDigits {scheme : List Char} {n : ℕ} (h : PlainPort scheme n) :
    parsePort scheme (some (Nat.toDigits 10 n)) = some (some n) := by
  have hnumber := portNumber_toDigits n
  have hdigits : (Nat.toDigits 10 n).all Char.isDigit = true := by
    simpa using fun c hc => toDigits_isDigit hc
  cases htext : Nat.toDigits 10 n with
  | nil => exact absurd htext Nat.toDigits_ne_nil
  | cons c digits =>
      rw [htext] at hnumber hdigits
      rw [parsePort, hnumber, if_pos ⟨hdigits, h.bound⟩, if_neg h.notDefault]

theorem parsePort_plain {scheme : List Char} {text : Option (List Char)} {n : ℕ}
    (h : parsePort scheme text = some (some n)) : PlainPort scheme n := by
  unfold parsePort at h
  split at h
  · cases h
  · cases h
  · split_ifs at h with hport hdefault
    · cases h
    · obtain rfl : portNumber _ = n := Option.some.inj (Option.some.inj h)
      exact ⟨hport.2, hdefault⟩

/-! ### Hosts -/

/-- The text of a host: without separators, or in brackets. -/
structure HostText (text : List Char) : Prop where
  chars : ∀ c ∈ text, isBlank c = false ∧ isEnd c = false ∧ c ≠ '@'
  shape : (text ≠ [] ∧ ∀ c ∈ text, c ∉ ":[]".toList) ∨
    ∃ body, text = '[' :: (body ++ [']']) ∧ ∀ c ∈ body, c ∉ "[]".toList

/-- A serializer for the hosts that a host parser gives. -/
structure HostWriter (r : Rules H) where
  hostText : H → List Char
  hostText_shape : ∀ text host, text ≠ [] → r.parseHost text = some host → HostText (hostText host)
  parse_hostText : ∀ text host, text ≠ [] → r.parseHost text = some host →
    r.parseHost (hostText host) = some host

theorem HostText.ne_nil {text : List Char} (h : HostText text) : text ≠ [] := by
  cases h.shape with
  | inl h => exact h.1
  | inr h =>
      obtain ⟨body, rfl, -⟩ := h
      exact List.cons_ne_nil _ _

/-- A `:` inside brackets belongs to the host. -/
theorem splitPort_brackets {body : List Char} (h : ∀ c ∈ body, c ∉ "[]".toList) (rest : List Char) :
    splitPort true (body ++ ']' :: rest) =
      (body ++ ']' :: (splitPort false rest).1, (splitPort false rest).2) := by
  induction body with
  | nil => simp [splitPort]
  | cons c body ih =>
      have hc : c ≠ '[' ∧ c ≠ ']' := by simpa using h c List.mem_cons_self
      rw [List.cons_append, splitPort, if_neg (by simp), if_neg hc.1, if_neg hc.2,
        ih fun d hd => h d (List.mem_cons_of_mem _ hd)]
      rfl

theorem splitPort_plain {text : List Char} (h : ∀ c ∈ text, c ∉ ":[]".toList) (rest : List Char) :
    splitPort false (text ++ rest) = (text ++ (splitPort false rest).1, (splitPort false rest).2) := by
  induction text with
  | nil => rfl
  | cons c text ih =>
      have hc : c ≠ ':' ∧ c ≠ '[' ∧ c ≠ ']' := by simpa using h c List.mem_cons_self
      rw [List.cons_append, splitPort, if_neg fun hcolon => hc.1 hcolon.1, if_neg hc.2.1,
        if_neg hc.2.2, ih fun d hd => h d (List.mem_cons_of_mem _ hd)]
      rfl

/-- The text of a host is not cut. -/
theorem splitPort_host {text : List Char} (h : HostText text) (rest : List Char) :
    splitPort false (text ++ rest) = (text ++ (splitPort false rest).1, (splitPort false rest).2) := by
  cases h.shape with
  | inl h => exact splitPort_plain h.2 rest
  | inr h =>
      obtain ⟨body, rfl, hbody⟩ := h
      have hcolon : ¬('[' = ':' ∧ false = false) := by simp
      rw [List.cons_append, List.append_assoc, List.singleton_append, splitPort, if_neg hcolon,
        if_pos rfl, splitPort_brackets hbody]
      simp

/-! ### Credentials -/

/-- The credentials of a URL, up to the `@`. -/
def credentialsText (username password : List Char) : List Char :=
  if username = [] ∧ password = [] then []
  else username ++ (if password = [] then [] else ':' :: password) ++ ['@']

/-- A character of a user name or a password. -/
structure PlainUserinfo (r : Rules H) (text : List Char) : Prop where
  chars : ∀ c ∈ text, userinfoSet r.pathSet c = false ∧ isEnd c = false

theorem PlainUserinfo.ne {r : Rules H} {text : List Char} (h : PlainUserinfo r text) {c : Char}
    (hc : "/:;=@[\\]^|".toList.contains c = true) : c ∉ text := by
  intro hmem
  have hset := (h.chars c hmem).1
  rw [userinfoSet, hc, Bool.or_true] at hset
  cases hset

theorem splitUserinfo_of_not_mem {text : List Char} (h : '@' ∉ text) : splitUserinfo text = ([], text) :=
  if_neg h

theorem splitUserinfo_at {text : List Char} : splitUserinfo (text ++ ['@']) = (text, []) := by
  have hdrop : (text ++ ['@']).rdropWhile (· ≠ '@') = text ++ ['@'] := by simp
  have htake : (text ++ ['@']).rtakeWhile (· ≠ '@') = [] := by simp
  rw [splitUserinfo, if_pos (by simp), hdrop, htake, List.dropLast_concat]

/-- The credentials are cut from the host at the `@`, and from each other at the first `:`. -/
theorem splitUserinfo_credentials {r : Rules H} {username password rest : List Char}
    (huser : PlainUserinfo r username) (hrest : '@' ∉ rest) :
    ∃ userinfo, splitUserinfo (credentialsText username password ++ rest) = (userinfo, rest) ∧
      userinfo.takeWhile (· ≠ ':') = username ∧ (userinfo.dropWhile (· ≠ ':')).tail = password := by
  have hcolon : ∀ c ∈ username, decide (c ≠ ':') = true := by
    simpa using fun c hc (h : c = ':') => huser.ne (c := ':') (by decide) (h ▸ hc)
  unfold credentialsText
  split_ifs with hnone hpass
  · rw [List.nil_append, splitUserinfo_of_not_mem hrest]
    exact ⟨[], rfl, hnone.1.symm, hnone.2.symm⟩
  · obtain ⟨htake, hdrop⟩ := cut_append (b := []) hcolon (by simp)
    rw [List.append_nil] at htake hdrop
    rw [List.append_nil, splitUserinfo_append hrest, splitUserinfo_at]
    exact ⟨username, rfl, htake, by rw [hdrop, hpass]; rfl⟩
  · obtain ⟨htake, hdrop⟩ := cut_append (b := ':' :: password) hcolon (by simp)
    rw [splitUserinfo_append hrest, splitUserinfo_at]
    exact ⟨_, rfl, htake, by rw [hdrop]; rfl⟩

/-! ### The serializer -/

/-- The text between the `:` and the path. -/
def authorityText (hostText : H → List Char) (u : Record H) : List Char :=
  match u.host with
  | some host =>
      "//".toList ++ (credentialsText u.username u.password ++ (hostText host ++ portText u.port))
  | none => if ['/', '/'].isPrefixOf u.path then "/.".toList else []

/-- What stands before a part that may be absent. -/
def optionText (mark : Char) : Option (List Char) → List Char
  | none => []
  | some text => mark :: text

/-- The URL serializer. -/
def serialize (hostText : H → List Char) (u : Record H) : List Char :=
  u.scheme ++ ':' :: (authorityText hostText u ++
    (u.path ++ (optionText '?' u.query ++ optionText '#' u.fragment)))

/-- A special URL as the parser gives it. -/
structure Canonical (r : Rules H) (u : Record H) : Prop where
  special : (defaultPort u.scheme).isSome = true
  username : PlainUserinfo r u.username
  password : PlainUserinfo r u.password
  host : ∃ text host, text ≠ [] ∧ u.host = some host ∧ r.parseHost text = some host
  port : ∀ n, u.port = some n → PlainPort u.scheme n
  path : ∃ segments : List (List Char), segments ≠ [] ∧ u.path = pathText segments ∧
    ∀ s ∈ segments, PlainSegment r s
  query : ∀ q, u.query = some q → ∀ c ∈ q, querySet c = false
  fragment : ∀ f, u.fragment = some f → ∀ c ∈ f, fragmentSet c = false

section

variable {r : Rules H} {u : Record H}

theorem special_scheme {scheme : List Char} (h : (defaultPort scheme).isSome = true) :
    scheme.map Char.toLower = scheme ∧ scheme.head?.any Char.isAlpha = true ∧
      ∀ c ∈ scheme, isSchemeChar c = true ∧ isBlank c = false := by
  have hmem : scheme ∈ ["http", "https", "ws", "wss", "ftp"].map String.toList := by
    obtain ⟨port, hport⟩ := Option.isSome_iff_exists.1 h
    obtain ⟨p, hp, hscheme⟩ := List.exists_of_findSome?_eq_some hport
    split_ifs at hscheme with heq
    rw [← heq]
    exact List.mem_map_of_mem (List.mem_map_of_mem (f := Prod.fst) hp)
  have hall : (["http", "https", "ws", "wss", "ftp"].map String.toList).all (fun scheme =>
      scheme.map Char.toLower = scheme ∧ scheme.head?.any Char.isAlpha = true ∧
        ∀ c ∈ scheme, isSchemeChar c = true ∧ isBlank c = false) = true := by
    simp [isSchemeChar, isBlank]
  simpa using List.all_eq_true.1 hall scheme hmem

/-- The text before the path is read back. -/
theorem parseAuthority_text (w : HostWriter r) {scheme username password text : List Char} {host : H}
    {port : Option ℕ} (huser : PlainUserinfo r username) (hpassword : PlainUserinfo r password)
    (hne : text ≠ []) (hhost : r.parseHost text = some host)
    (hport : ∀ n, port = some n → PlainPort scheme n) :
    r.parseAuthority scheme (credentialsText username password ++ (w.hostText host ++ portText port)) =
      some { username, password, host, port } := by
  have hshape := w.hostText_shape text host hne hhost
  have hat : '@' ∉ w.hostText host ++ portText port := by
    intro hmem
    cases List.mem_append.1 hmem with
    | inl hmem => exact (hshape.chars _ hmem).2.2 rfl
    | inr hmem => exact (portText_visible _ hmem).2.2 rfl
  obtain ⟨userinfo, hsplit, htake, (hdrop : _ = password)⟩ := splitUserinfo_credentials huser hat
  have hplain (text : List Char) (h : PlainUserinfo r text) :
      encode (userinfoSet r.pathSet) text = text :=
    encode_of_plain fun c hc => (h.chars c hc).1
  have hparse : parsePort scheme (splitPort false (portText port)).2 = some port := by
    cases port with
    | none => rfl
    | some n => exact parsePort_toDigits (hport n rfl)
  have hempty : (splitPort false (portText port)).1 = [] := by
    cases port with
    | none => rfl
    | some n => rfl
  simp only [Rules.parseAuthority, hsplit, splitPort_host hshape, hempty, List.append_nil,
    hshape.ne_nil, if_false, w.parse_hostText text host hne hhost, hparse, htake, hdrop, Option.bind_some,
    Option.map_some, hplain username huser, hplain password hpassword]

/-- The path, the query and the fragment are read back. -/
theorem splitTail_text {path : List Char} {query fragment : Option (List Char)}
    (hpath : ∀ c ∈ path, c ≠ '?' ∧ c ≠ '#') (hquery : ∀ q, query = some q → ∀ c ∈ q, querySet c = false)
    (hfragment : ∀ f, fragment = some f → ∀ c ∈ f, fragmentSet c = false) :
    splitTail (path ++ (optionText '?' query ++ optionText '#' fragment)) = (path, query, fragment) := by
  have hbody : ∀ c ∈ path ++ optionText '?' query, decide (c ≠ '#') = true := by
    intro c hc
    rw [decide_eq_true_eq]
    cases List.mem_append.1 hc with
    | inl hc => exact (hpath c hc).2
    | inr hc =>
        cases query with
        | none => cases hc
        | some q =>
            cases List.mem_cons.1 hc with
            | inl hc => rw [hc]; decide
            | inr hc => exact (querySet_visible (hquery q rfl c hc)).2
  have hmark (mark : Char) (part : Option (List Char)) :
      ∀ c ∈ (optionText mark part).head?, decide (c ≠ mark) = false := by
    cases part <;> simp [optionText]
  have htail (mark : Char) (part : Option (List Char)) : (optionText mark part).tail? = part := by
    cases part <;> rfl
  have hmap (set : Char → Bool) (part : Option (List Char))
      (h : ∀ text, part = some text → ∀ c ∈ text, set c = false) : part.map (encode set) = part := by
    cases part with
    | none => rfl
    | some text => exact congrArg some (encode_of_plain (h text rfl))
  obtain ⟨htake, hdrop⟩ := cut_append hbody (hmark '#' fragment)
  obtain ⟨htake', hdrop'⟩ := cut_append (p := (· ≠ '?')) (a := path)
    (by simpa using fun c hc => (hpath c hc).1) (hmark '?' query)
  rw [← List.append_assoc, splitTail]
  simp only [htake, hdrop, htake', hdrop', htail, hmap querySet query hquery,
    hmap fragmentSet fragment hfragment]

theorem pathText_chars {segments : List (List Char)} (h : ∀ s ∈ segments, PlainSegment r s) :
    ∀ c ∈ pathText segments, isBlank c = false ∧ c ≠ '?' ∧ c ≠ '#' := by
  intro c hc
  obtain ⟨s, hs, hc⟩ := List.mem_flatMap.1 hc
  cases List.mem_cons.1 hc with
  | inl hc => rw [hc]; decide
  | inr hc =>
      obtain ⟨hset, hend⟩ := (h s hs).chars c hc
      simp only [isEnd, Bool.or_eq_false_iff, beq_eq_false_iff_ne] at hend
      exact ⟨r.pathSet_visible hset, hend.1.2, hend.2⟩

theorem PlainUserinfo.visible {text : List Char} (h : PlainUserinfo r text) :
    ∀ c ∈ text, isBlank c = false ∧ isEnd c = false := by
  intro c hc
  obtain ⟨hset, hend⟩ := h.chars c hc
  exact ⟨r.pathSet_visible (Bool.or_eq_false_iff.1 hset).1, hend⟩

theorem credentialsText_visible {username password : List Char} (huser : PlainUserinfo r username)
    (hpassword : PlainUserinfo r password) :
    ∀ c ∈ credentialsText username password, isBlank c = false ∧ isEnd c = false := by
  intro c hc
  have hcolon : isBlank ':' = false ∧ isEnd ':' = false := by decide
  have hat : isBlank '@' = false ∧ isEnd '@' = false := by decide
  unfold credentialsText at hc
  split_ifs at hc with hnone hpass
  · cases hc
  · rw [List.append_nil, List.mem_append, List.mem_singleton] at hc
    cases hc with
    | inl hc => exact huser.visible c hc
    | inr hc => rw [hc]; exact hat
  · rw [List.mem_append, List.mem_append, List.mem_cons, List.mem_singleton] at hc
    rcases hc with (hc | hc | hc) | hc
    · exact huser.visible c hc
    · rw [hc]; exact hcolon
    · exact hpassword.visible c hc
    · rw [hc]; exact hat

theorem optionText_visible {mark : Char} {part : Option (List Char)} (hmark : isBlank mark = false)
    (h : ∀ text, part = some text → ∀ c ∈ text, isBlank c = false) :
    ∀ c ∈ optionText mark part, isBlank c = false := by
  intro c hc
  cases part with
  | none => cases hc
  | some text =>
      cases List.mem_cons.1 hc with
      | inl hc => rw [hc, hmark]
      | inr hc => exact h text rfl c hc

/-- A text without blanks is parsed as it is. -/
theorem prepare_visible {text : List Char} (h : ∀ c ∈ text, isBlank c = false) : prepare text = text := by
  cases text with
  | nil => rfl
  | cons c text =>
      have hprepare := prepare_of_start (List.cons_ne_nil c text) h []
      rw [List.append_nil] at hprepare
      rw [hprepare]
      exact List.append_nil _

/-- **A URL is read back from its text.** -/
theorem Rules.parse_serialize (w : HostWriter r) (hu : Canonical r u) :
    r.parse (serialize w.hostText u) = some u := by
  obtain ⟨text, host, htextNe, hhost, hparsed⟩ := hu.host
  obtain ⟨segments, hne, hpath, hsegments⟩ := hu.path
  obtain ⟨hlower, halpha, hscheme⟩ := special_scheme hu.special
  have hshape := w.hostText_shape text host htextNe hparsed
  have hpathChars := hpath ▸ pathText_chars hsegments
  have hread := parseAuthority_text w hu.username hu.password htextNe hparsed hu.port
  generalize hauthority : credentialsText u.username u.password ++ (w.hostText host ++ portText u.port) =
    authority at hread
  generalize hafter : u.path ++ (optionText '?' u.query ++ optionText '#' u.fragment) = after
  have htext : serialize w.hostText u = u.scheme ++ ':' :: ("//".toList ++ (authority ++ after)) := by
    rw [serialize, authorityText, hhost, hafter]
    simp only [hauthority, List.append_assoc]
  have hauthorityChars : ∀ c ∈ authority, isBlank c = false ∧ isEnd c = false := by
    intro c hc
    rw [← hauthority, List.mem_append, List.mem_append] at hc
    rcases hc with hc | hc | hc
    · exact credentialsText_visible hu.username hu.password c hc
    · exact ⟨(hshape.chars c hc).1, (hshape.chars c hc).2.1⟩
    · exact ⟨(portText_visible c hc).1, (portText_visible c hc).2.1⟩
  have hafterChars : ∀ c ∈ after, isBlank c = false := by
    intro c hc
    rw [← hafter, List.mem_append, List.mem_append] at hc
    rcases hc with hc | hc | hc
    · exact (hpathChars c hc).1
    · exact optionText_visible (by decide) (fun q hq d hd => (querySet_visible (hu.query q hq d hd)).1) c hc
    · exact optionText_visible (by decide) (fun f hf d hd => fragmentSet_visible (hu.fragment f hf d hd)) c hc
  have hvisible : ∀ c ∈ serialize w.hostText u, isBlank c = false := by
    intro c hc
    rw [htext, List.mem_append, List.mem_cons, List.mem_append, List.mem_append] at hc
    rcases hc with hc | hc | hc | hc | hc
    · exact (hscheme c hc).2
    · rw [hc]; decide
    · rw [show c = '/' by simpa using hc]; decide
    · exact (hauthorityChars c hc).1
    · exact hafterChars c hc
  have hsplit : splitScheme (serialize w.hostText u) =
      some (u.scheme, "//".toList ++ (authority ++ after)) :=
    splitScheme_eq_some.2 ⟨u.scheme, htext, hlower.symm, halpha, fun c hc => (hscheme c hc).1⟩
  have hfollows : Follows after := by
    obtain ⟨s, rest, rfl⟩ := List.exists_cons_of_ne_nil hne
    rw [← hafter, hpath, pathText, List.flatMap_cons]
    simp [Follows, isEnd, isSlash]
  have hne' : authority ≠ [] := by
    rw [← hauthority]
    simp [hshape.ne_nil]
  have htail := splitTail_text (fun c hc => (hpathChars c hc).2) hu.query hu.fragment
  rw [hafter] at htail
  rw [Rules.parse, prepare_visible hvisible, hsplit]
  simp only [hu.special, if_true]
  rw [parseSpecial_of_authority r u.scheme (by simp [isSlash]) hne'
    (fun c hc => (hauthorityChars c hc).2) hfollows, hread, Option.map_some, htail]
  have hsegmentsRead : r.parsePath [] u.path.tail = u.path := by
    rw [hpath, r.parsePath_pathText hne hsegments]
  simp only [hsegmentsRead, ← hhost]

/-! ### What the parser gives -/

theorem mem_splitUserinfo {authority : List Char} {c : Char} (h : c ∈ (splitUserinfo authority).1) :
    c ∈ authority := by
  unfold splitUserinfo at h
  split_ifs at h with hat
  · exact (List.rdropWhile_prefix _ _).subset (List.dropLast_subset _ h)
  · cases h

theorem plainUserinfo_encode {text : List Char} (h : ∀ c ∈ text, isEnd c = false) :
    PlainUserinfo r (encode (userinfoSet r.pathSet) text) := by
  refine ⟨fun c hc => ⟨encode_plain (fun _ => r.userinfoSet_escape) hc, ?_⟩⟩
  cases mem_encode hc with
  | inl hc => exact h c hc.1
  | inr hc => exact isEnd_escape hc

/-- What is read from an authority. -/
structure PlainAuthority (r : Rules H) (scheme : List Char) (a : Authority H) : Prop where
  username : PlainUserinfo r a.username
  password : PlainUserinfo r a.password
  host : ∃ text, text ≠ [] ∧ r.parseHost text = some a.host
  port : ∀ n, a.port = some n → PlainPort scheme n

theorem parseAuthority_plain {scheme authority : List Char} {a : Authority H}
    (hend : ∀ c ∈ authority, isEnd c = false) (h : r.parseAuthority scheme authority = some a) :
    PlainAuthority r scheme a := by
  have huserinfo : ∀ c ∈ (splitUserinfo authority).1, isEnd c = false :=
    fun c hc => hend c (mem_splitUserinfo hc)
  unfold Rules.parseAuthority at h
  dsimp only at h
  split_ifs at h with hempty
  obtain ⟨host, hhost, h⟩ := Option.bind_eq_some_iff.1 h
  obtain ⟨port, hport, rfl⟩ := Option.map_eq_some_iff.1 h
  refine ⟨plainUserinfo_encode fun c hc => ?_, plainUserinfo_encode fun c hc => ?_,
    ⟨_, hempty, hhost⟩,
    fun n hn => ?_⟩
  · exact huserinfo c ((List.takeWhile_prefix _).subset hc)
  · exact huserinfo c ((List.dropWhile_suffix _).subset (List.mem_of_mem_tail hc))
  · obtain rfl : port = some n := hn
    exact parsePort_plain hport

theorem splitTail_path {text : List Char} : ∀ c ∈ (splitTail text).1, c ≠ '?' ∧ c ≠ '#' := by
  intro c hc
  rw [splitTail] at hc
  have hquery := List.mem_takeWhile_imp hc
  have hfragment := List.mem_takeWhile_imp ((List.takeWhile_prefix _).subset hc)
  exact ⟨by simpa using hquery, by simpa using hfragment⟩

/-- **A parsed URL is canonical.** -/
theorem canonical_of_parseSpecial {scheme rest : List Char}
    (hspecial : (defaultPort scheme).isSome = true) (h : r.parseSpecial scheme rest = some u) :
    Canonical r u := by
  obtain ⟨a, ha, rfl⟩ := Option.map_eq_some_iff.1 h
  have hplain := parseAuthority_plain (fun c hc => by simpa using List.mem_takeWhile_imp hc) ha
  obtain ⟨text, hne, hhost⟩ := hplain.host
  refine ⟨hspecial, hplain.username, hplain.password, ⟨text, a.host, hne, rfl, hhost⟩, hplain.port,
    r.parsePath_plain fun c hc => splitTail_path c (List.mem_of_mem_tail hc), fun q hq c hc => ?_,
    fun f hf c hc => ?_⟩
  · obtain ⟨text, -, rfl⟩ := Option.map_eq_some_iff.1 hq
    exact encode_plain (fun _ => querySet_escape) hc
  · obtain ⟨text, -, rfl⟩ := Option.map_eq_some_iff.1 hf
    exact encode_plain (fun _ => fragmentSet_escape) hc

theorem canonical_of_parse {text : List Char} (h : r.parse text = some u)
    (hspecial : (defaultPort u.scheme).isSome = true) : Canonical r u := by
  obtain ⟨rest, -, hrest⟩ := r.parse_special h hspecial
  exact canonical_of_parseSpecial hspecial hrest

end

end SharpOauth.UrlStandard
