import SharpOauth.Cookies
import SharpOauth.FormRoundTrip

/-! # Reading one cookie among others

A `Cookie` line is a byte string made of pairs `name=value` joined by `;` (`cookiePairs`).
`CookieManager.get` turns each line into text before it looks for pairs, and skips the lines
that have a byte beyond visible ASCII (`Visible`).

So a cookie is read from its pairs in the visible lines (`ownPairs`, `get_eq_valueIn`), whatever
stands beside them, as long as the same lines stay visible.  One foreign pair with such a byte hides
everything in its line: a request carries a cookie that no change to the other pairs affects
exactly if no line says anything that could be hidden (`Exposed`, `cookie_reading`). -/

namespace SharpOauth

/-! ### Blanks around a pair -/

/-- A space or a tab. -/
def isBlank (c : Char) : Bool := c == ' ' || c == '\t'

/-- A list without the blanks at its ends. -/
def trimBlanks (l : List Char) : List Char := (l.dropWhile isBlank).rdropWhile isBlank

theorem trimBlanks_sublist (l : List Char) : (trimBlanks l).Sublist l :=
  (List.rdropWhile_prefix _ _).sublist.trans (List.dropWhile_sublist _)

theorem trimBlanks_idempotent (l : List Char) : trimBlanks (trimBlanks l) = trimBlanks l := by
  have hhead : (trimBlanks l).dropWhile isBlank = trimBlanks l := by
    rw [List.dropWhile_eq_self_iff]
    intro hpos hblank
    have hprefix : trimBlanks l <+: l.dropWhile isBlank := List.rdropWhile_prefix _ _
    have hfirst := hprefix.getElem hpos
    have hdrop := List.dropWhile_get_zero_not isBlank l (hpos.trans_le hprefix.length_le)
    rw [List.get_eq_getElem] at hdrop
    exact hdrop (hfirst ▸ hblank)
  have hlast : (trimBlanks l).rdropWhile isBlank = trimBlanks l := List.rdropWhile_idempotent _ _
  rw [trimBlanks, hhead, hlast]

/-- On a list without other whitespace, `trim` removes just the blanks. -/
theorem trim_ofList {l : List Char} (h : ∀ c ∈ l, isWhitespace c = isBlank c) :
    trim (String.ofList l) = String.ofList (trimBlanks l) := by
  have hdrop (m : List Char) (hm : ∀ c ∈ m, isWhitespace c = isBlank c) :
      m.dropWhile isWhitespace = m.dropWhile isBlank := by
    induction m with
    | nil => rfl
    | cons c m ih =>
        rw [List.dropWhile_cons, List.dropWhile_cons, hm c List.mem_cons_self,
          ih fun x hx => hm x (List.mem_cons_of_mem _ hx)]
  have hreverse : ∀ c ∈ (l.dropWhile isBlank).reverse, isWhitespace c = isBlank c :=
    fun c hc => h c ((List.dropWhile_sublist _).mem (List.mem_reverse.1 hc))
  rw [trim, String.toList_ofList, hdrop l h, hdrop _ hreverse, trimBlanks, List.rdropWhile]

/-- The parts of a list are made of its elements, without the separator. -/
theorem mem_splitOn {sep : Char} (l : List Char) : ∀ part ∈ l.splitOn sep,
    sep ∉ part ∧ ∀ c ∈ part, c ∈ l := by
  induction l with
  | nil =>
      intro part hpart
      rw [List.splitOn_nil, List.mem_singleton] at hpart
      simp [hpart]
  | cons x l ih =>
      intro part hpart
      rw [List.splitOn_cons_eq_if_modifyHead] at hpart
      obtain ⟨first, rest, hsplit⟩ := List.exists_cons_of_ne_nil (List.splitOn_ne_nil sep l)
      rw [hsplit] at hpart ih
      split_ifs at hpart with hx
      · rcases List.mem_cons.1 hpart with rfl | hpart
        · simp
        · obtain ⟨hsep, hsub⟩ := ih part hpart
          exact ⟨hsep, fun c hc => List.mem_cons_of_mem _ (hsub c hc)⟩
      · rw [List.modifyHead_cons] at hpart
        rcases List.mem_cons.1 hpart with rfl | hpart
        · obtain ⟨hsep, hsub⟩ := ih first List.mem_cons_self
          refine ⟨?_, fun c hc => ?_⟩
          · rw [List.mem_cons, not_or]
            exact ⟨fun heq => hx (by simp [heq]), hsep⟩
          · rcases List.mem_cons.1 hc with rfl | hc
            · exact List.mem_cons_self
            · exact List.mem_cons_of_mem _ (hsub c hc)
        · obtain ⟨hsep, hsub⟩ := ih part (List.mem_cons_of_mem _ hpart)
          exact ⟨hsep, fun c hc => List.mem_cons_of_mem _ (hsub c hc)⟩

namespace CookieManager

/-! ### Pairs of a line -/

/-- The text of a line, with one character for every byte. -/
def latin1 (line : List UInt8) : List Char := line.map fun b => Char.ofNat b.toNat

/-- The pairs of a line. -/
def cookiePairs (line : List UInt8) : List (String × String) :=
  ((latin1 line).splitOn ';').filterMap fun pair => splitOnce '=' (String.ofList (trimBlanks pair))

/-- Nothing but visible ASCII, spaces and tabs. -/
def Visible (line : List UInt8) : Prop := (headerText line).isSome = true

instance (line : List UInt8) : Decidable (Visible line) := inferInstanceAs (Decidable (_ = true))

theorem visible_iff (line : List UInt8) :
    Visible line ↔ ∀ b ∈ line, (32 ≤ b.toNat ∧ b.toNat < 127) ∨ b = 9 := by
  rw [Visible, headerText]
  split_ifs with h
  · simpa using h
  · simpa using h

/-- What the code reads in a visible line. -/
theorem pairs_of_visible {line : List UInt8} {text : String} (h : headerText line = some text) :
    (splitAll ';' text).filterMap (fun pair => splitOnce '=' (trim pair)) = cookiePairs line := by
  have hvisible : ∀ c ∈ latin1 line, isWhitespace c = isBlank c := by
    have hbyte : ∀ n < 127, isWhitespace (Char.ofNat n) = isBlank (Char.ofNat n) ∨ (n < 32 ∧ n ≠ 9) := by
      decide +kernel
    have hall := (visible_iff line).1 (by rw [Visible, h]; rfl)
    intro c hc
    obtain ⟨b, hb, rfl⟩ := List.mem_map.1 hc
    rcases hall b hb with hb | rfl
    · rcases hbyte b.toNat hb.2 with heq | hlow
      · exact heq
      · omega
    · decide
  have htext : text = String.ofList (latin1 line) := by
    rw [headerText] at h
    split_ifs at h
    exact (Option.some.inj h).symm
  rw [htext, splitAll, String.toList_ofList, cookiePairs, List.filterMap_map]
  refine List.filterMap_congr fun pair hpair => ?_
  rw [Function.comp_apply, trim_ofList fun c hc => hvisible c ((mem_splitOn _ pair hpair).2 c hc)]

/-- A part before the separator, and the rest. -/
theorem splitOnce_eq_some {sep : Char} {s a b : String} (h : splitOnce sep s = some (a, b)) :
    s.toList = a.toList ++ sep :: b.toList ∧ sep ∉ a.toList := by
  rw [splitOnce, List.span_eq_takeWhile_dropWhile] at h
  cases hdrop : s.toList.dropWhile (· != sep) with
  | nil =>
      rw [hdrop] at h
      cases h
  | cons c rest =>
      rw [hdrop] at h
      obtain ⟨ha, hb⟩ := Prod.mk.inj (Option.some.inj h)
      have hne : s.toList.dropWhile (· != sep) ≠ [] := by simp [hdrop]
      have hsep : c = sep := by
        have hhead := List.head_dropWhile_not (· != sep) hne
        simpa [hdrop] using hhead
      constructor
      · rw [← ha, ← hb, String.toList_ofList, String.toList_ofList, ← hsep]
        have hsplit := List.takeWhile_append_dropWhile (p := (· != sep)) (l := s.toList)
        rw [hdrop] at hsplit
        rw [hsep] at hsplit ⊢
        exact hsplit.symm
      · rw [← ha, String.toList_ofList]
        intro hmem
        simpa using List.mem_takeWhile_imp hmem

/-- A pair of a line is a part of it, without separators and without blanks at its ends. -/
theorem pair_of_mem {line : List UInt8} {p : String × String} (hp : p ∈ cookiePairs line) :
    trimBlanks (p.1.toList ++ '=' :: p.2.toList) = p.1.toList ++ '=' :: p.2.toList ∧
      '=' ∉ p.1.toList ∧ ';' ∉ p.1.toList ++ '=' :: p.2.toList ∧
      ∀ c ∈ p.1.toList ++ '=' :: p.2.toList, c ∈ latin1 line := by
  obtain ⟨pair, hpair, hsplit⟩ := List.mem_filterMap.1 hp
  obtain ⟨htext, hname⟩ := splitOnce_eq_some (a := p.1) (b := p.2) hsplit
  rw [String.toList_ofList] at htext
  obtain ⟨hsep, hsub⟩ := mem_splitOn _ pair hpair
  have hmem : ∀ c ∈ p.1.toList ++ '=' :: p.2.toList, c ∈ pair := by
    rw [← htext]
    exact fun c hc => (trimBlanks_sublist pair).mem hc
  refine ⟨?_, hname, fun hc => hsep (hmem _ hc), fun c hc => hsub c (hmem c hc)⟩
  rw [← htext]
  exact trimBlanks_idempotent pair

/-! ### What is read -/

/-- The pairs that are sent for a name, in order. -/
def namedPairs (name : String) (lines : List (List UInt8)) : List (String × String) :=
  (lines.flatMap cookiePairs).filter fun p => p.1 = name

theorem namedPairs_append (name : String) (lines lines' : List (List UInt8)) :
    namedPairs name (lines ++ lines') = namedPairs name lines ++ namedPairs name lines' := by
  rw [namedPairs, List.flatMap_append, List.filter_append, namedPairs, namedPairs]

theorem get_eq (headers : HeaderMap) (name : String) : get headers name =
    ((namedPairs name (headers.cookie.filter Visible)).head?.map Prod.snd).filter (· ≠ "") := by
  have hlines (lines : List (List UInt8)) :
      ((lines.filterMap headerText).flatMap (splitAll ';')).filterMap
        (fun pair => splitOnce '=' (trim pair)) = (lines.filter Visible).flatMap cookiePairs := by
    induction lines with
    | nil => rfl
    | cons line lines ih =>
        cases htext : headerText line with
        | none =>
            have hhidden : ¬Visible line := by simp [Visible, htext]
            rw [List.filterMap_cons_none htext, List.filter_cons_of_neg (by simpa using hhidden), ih]
        | some text =>
            have hvisible : Visible line := by simp [Visible, htext]
            rw [List.filterMap_cons_some htext, List.filter_cons_of_pos (by simpa using hvisible),
              List.flatMap_cons, List.flatMap_cons, List.filterMap_append, ih, pairs_of_visible htext]
  have hget : get headers name =
      (((((headers.cookie.filterMap headerText).flatMap (splitAll ';')).filterMap
        (fun pair => splitOnce '=' (trim pair))).find? fun p => p.1 = name).map Prod.snd).filter
          (· ≠ "") := rfl
  rw [hget, hlines, namedPairs, List.head?_filter]

/-- A name without the blanks around it. -/
def trimName (name : String) : String := String.ofList (trimBlanks name.toList)

/-- The pairs of a line that belong to the name, in order. -/
def ownPairs (name : String) (line : List UInt8) : List (String × String) :=
  (cookiePairs line).filter fun p => trimName p.1 = trimName name

/-- The lines with a pair of the name, in order. -/
def ownLines (name : String) (lines : List (List UInt8)) : List (List UInt8) :=
  lines.filter fun line => ownPairs name line ≠ []

/-- What a list of pairs says for the name: its first value, if that is not empty. -/
def valueIn (name : String) (pairs : List (String × String)) : Option String :=
  ((pairs.find? fun p => p.1 = name).map Prod.snd).filter (· ≠ "")

theorem ownPairs_filter (name : String) (line : List UInt8) :
    (ownPairs name line).filter (fun p => p.1 = name) =
      (cookiePairs line).filter fun p => p.1 = name := by
  rw [ownPairs, List.filter_filter]
  refine List.filter_congr fun p _ => ?_
  by_cases hname : p.1 = name <;> simp [hname]

theorem namedPairs_ownLines (name : String) (lines : List (List UInt8)) :
    namedPairs name lines =
      ((ownLines name lines).flatMap (ownPairs name)).filter fun p => p.1 = name := by
  induction lines with
  | nil => rfl
  | cons line lines ih =>
      have hline : (cookiePairs line).filter (fun p => p.1 = name) =
          (ownPairs name line).filter fun p => p.1 = name := (ownPairs_filter name line).symm
      rw [namedPairs] at ih ⊢
      rw [List.flatMap_cons, List.filter_append, ih, hline, ownLines, ownLines]
      by_cases hown : ownPairs name line = []
      · rw [List.filter_cons_of_neg (by simpa using hown), hown, List.filter_nil, List.nil_append]
      · rw [List.filter_cons_of_pos (by simpa using hown), List.flatMap_cons, List.filter_append]

/-- **A cookie is read from its pairs in the visible lines.** -/
theorem get_eq_valueIn (headers : HeaderMap) (name : String) : get headers name =
    valueIn name (((ownLines name headers.cookie).filter Visible).flatMap (ownPairs name)) := by
  rw [get_eq, namedPairs_ownLines, List.head?_filter, valueIn, ownLines, ownLines, List.filter_filter,
    List.filter_filter]
  simp only [Bool.and_comm]

/-- A pair that fits into a visible line. -/
def PairVisible (p : String × String) : Prop :=
  ∀ c ∈ p.1.toList ++ p.2.toList, (32 ≤ c.toNat ∧ c.toNat < 127) ∨ c = '\t'

/-- The pairs of a visible line are visible. -/
theorem pairVisible_of_mem {line : List UInt8} (h : Visible line) {p : String × String}
    (hp : p ∈ cookiePairs line) : PairVisible p := by
  obtain ⟨-, -, -, hchars⟩ := pair_of_mem hp
  intro c hc
  have hc : c ∈ p.1.toList ++ '=' :: p.2.toList := by
    rcases List.mem_append.1 hc with hc | hc
    · exact List.mem_append_left _ hc
    · exact List.mem_append_right _ (List.mem_cons_of_mem _ hc)
  obtain ⟨b, hb, rfl⟩ := List.mem_map.1 (hchars c hc)
  rcases (visible_iff line).1 h b hb with hb | rfl
  · refine .inl ?_
    rw [Char.toNat_ofNat, if_pos (.inl (by omega))]
    exact hb
  · exact .inr rfl

/-! ### Lines of given pairs -/

/-- A line with one pair. -/
def pairLine (p : String × String) : List UInt8 :=
  (p.1.toList ++ '=' :: p.2.toList).map fun c => UInt8.ofNat c.toNat

/-- A pair that may stand in a line on its own. -/
structure Plain (p : String × String) : Prop where
  trimmed : trimBlanks (p.1.toList ++ '=' :: p.2.toList) = p.1.toList ++ '=' :: p.2.toList
  name : '=' ∉ p.1.toList
  separator : ';' ∉ p.1.toList ++ '=' :: p.2.toList
  bytes : ∀ c ∈ p.1.toList ++ '=' :: p.2.toList, c.toNat < 256

theorem plain_of_mem {line : List UInt8} {p : String × String} (hp : p ∈ cookiePairs line) :
    Plain p := by
  obtain ⟨htrim, hname, hsep, hchars⟩ := pair_of_mem hp
  refine ⟨htrim, hname, hsep, fun c hc => ?_⟩
  obtain ⟨b, -, rfl⟩ := List.mem_map.1 (hchars c hc)
  have hb := b.toNat_lt
  rw [Char.toNat_ofNat, if_pos (.inl (by omega))]
  exact hb

theorem cookiePairs_pairLine {p : String × String} (h : Plain p) :
    cookiePairs (pairLine p) = [p] := by
  have htext : latin1 (pairLine p) = p.1.toList ++ '=' :: p.2.toList := by
    rw [latin1, pairLine, List.map_map]
    refine (List.map_congr_left fun c hc => ?_).trans (List.map_id _)
    rw [Function.comp_apply, toNat_ofNat_of_lt (h.bytes c hc), Char.ofNat_toNat, id]
  have hsplit : splitOnce '=' (String.ofList (p.1.toList ++ '=' :: p.2.toList)) = some p := by
    have happend : String.ofList (p.1.toList ++ '=' :: p.2.toList) =
        p.1 ++ String.singleton '=' ++ p.2 := by
      rw [← String.toList_inj]
      simp
    rw [happend, splitOnce_append h.name]
  rw [cookiePairs, htext, List.splitOn_eq_singleton h.separator, List.filterMap_cons_some (b := p),
    List.filterMap_nil]
  rw [h.trimmed, hsplit]

theorem visible_pairLine {p : String × String} (h : PairVisible p) : Visible (pairLine p) := by
  rw [visible_iff]
  intro b hb
  obtain ⟨c, hc, rfl⟩ := List.mem_map.1 hb
  have hc : c = '=' ∨ c ∈ p.1.toList ++ p.2.toList := by
    simp only [List.mem_append, List.mem_cons] at hc ⊢
    tauto
  rcases hc with rfl | hc
  · decide
  · rcases h c hc with hc | rfl
    · refine .inl ?_
      rw [toNat_ofNat_of_lt (by omega)]
      exact hc
    · decide

/-! ### Several parts -/

theorem separator_latin1 {part : List UInt8} (h : 0x3B ∉ part) : ';' ∉ latin1 part := by
  intro hmem
  obtain ⟨b, hb, hchar⟩ := List.mem_map.1 hmem
  have hcode := congrArg Char.toNat hchar
  have hlt := b.toNat_lt
  rw [Char.toNat_ofNat, if_pos (.inl (by omega))] at hcode
  have hbyte : b = 0x3B := UInt8.toNat_inj.1 hcode
  exact h (hbyte ▸ hb)

/-- The pairs of a line are the pairs of its parts. -/
theorem cookiePairs_intercalate {parts : List (List UInt8)} (hne : parts ≠ [])
    (h : ∀ part ∈ parts, 0x3B ∉ part) :
    cookiePairs ([0x3B].intercalate parts) = parts.flatMap cookiePairs := by
  have htext : latin1 ([0x3B].intercalate parts) = [';'].intercalate (parts.map latin1) := by
    obtain ⟨part, rest, rfl⟩ := List.exists_cons_of_ne_nil hne
    rw [List.map_cons, intercalate_cons_flatMap, intercalate_cons_flatMap, latin1, List.map_append,
      List.map_flatMap, List.flatMap_map]
    rfl
  have hparts : ∀ l ∈ parts.map latin1, ';' ∉ l := by
    intro l hl
    obtain ⟨part, hpart, rfl⟩ := List.mem_map.1 hl
    exact separator_latin1 (h part hpart)
  have hone (part : List UInt8) (hpart : part ∈ parts) : cookiePairs part =
      (splitOnce '=' (String.ofList (trimBlanks (latin1 part)))).toList := by
    rw [cookiePairs, List.splitOn_eq_singleton (separator_latin1 (h part hpart)),
      List.filterMap_cons, List.filterMap_nil]
    cases splitOnce '=' (String.ofList (trimBlanks (latin1 part))) <;> rfl
  rw [cookiePairs, htext, List.splitOn_intercalate _ hparts (by simpa using hne), List.filterMap_map,
    List.filterMap_eq_flatMap_toList]
  exact List.flatMap_congr fun part hpart => (hone part hpart).symm

theorem visible_intercalate {parts : List (List UInt8)} (hne : parts ≠ []) :
    Visible ([0x3B].intercalate parts) ↔ ∀ part ∈ parts, Visible part := by
  obtain ⟨part, rest, rfl⟩ := List.exists_cons_of_ne_nil hne
  rw [intercalate_cons_flatMap]
  simp only [visible_iff, List.mem_append, List.mem_flatMap, List.forall_mem_cons]
  constructor
  · intro h
    exact ⟨fun b hb => h b (.inl hb), fun l hl b hb => h b (.inr ⟨l, hl, List.mem_cons_of_mem _ hb⟩)⟩
  · rintro ⟨hfirst, hrest⟩ b (hb | ⟨l, hl, hb⟩)
    · exact hfirst b hb
    · rcases List.mem_cons.1 hb with rfl | hb
      · decide
      · exact hrest l hl b hb

theorem separator_pairLine {p : String × String} (h : Plain p) : 0x3B ∉ pairLine p := by
  intro hmem
  obtain ⟨c, hc, hcode⟩ := List.mem_map.1 hmem
  have hbyte := congrArg UInt8.toNat hcode
  rw [toNat_ofNat_of_lt (h.bytes c hc)] at hbyte
  have hsemi : c = ';' := Char.ext (UInt32.toNat_inj.1 hbyte)
  exact h.separator (hsemi ▸ hc)

/-- A line of the pairs. -/
def lineOf (pairs : List (String × String)) : List UInt8 := [0x3B].intercalate (pairs.map pairLine)

section lines

variable {pairs : List (String × String)}

theorem separator_pairLines (h : ∀ p ∈ pairs, Plain p) : ∀ part ∈ pairs.map pairLine, 0x3B ∉ part := by
  intro part hpart
  obtain ⟨p, hp, rfl⟩ := List.mem_map.1 hpart
  exact separator_pairLine (h p hp)

theorem cookiePairs_lineOf (hne : pairs ≠ []) (h : ∀ p ∈ pairs, Plain p) :
    cookiePairs (lineOf pairs) = pairs := by
  rw [lineOf, cookiePairs_intercalate (by simpa using hne) (separator_pairLines h), List.flatMap_map]
  refine (List.flatMap_congr fun p hp => ?_).trans (List.flatMap_singleton' pairs)
  exact cookiePairs_pairLine (h p hp)

theorem visible_lineOf (hne : pairs ≠ []) :
    Visible (lineOf pairs) ↔ ∀ p ∈ pairs, Visible (pairLine p) := by
  rw [lineOf, visible_intercalate (by simpa using hne)]
  exact List.forall_mem_map

/-- Every part of the line is a pair. -/
theorem parts_lineOf (hne : pairs ≠ []) (h : ∀ p ∈ pairs, Plain p) :
    ∀ part ∈ (lineOf pairs).splitOn 0x3B, 0x3D ∈ part := by
  rw [lineOf, List.splitOn_intercalate _ (separator_pairLines h) (by simpa using hne)]
  intro part hpart
  obtain ⟨p, -, rfl⟩ := List.mem_map.1 hpart
  exact List.mem_map.2 ⟨'=', by simp, rfl⟩

end lines

/-- Blanks before a part change nothing. -/
theorem cookiePairs_blanks {blanks part : List UInt8} (hblanks : ∀ b ∈ blanks, b = 0x20)
    (h : 0x3B ∉ part) : cookiePairs (blanks ++ part) = cookiePairs part := by
  have hall : 0x3B ∉ blanks ++ part := by
    rw [List.mem_append, not_or]
    exact ⟨fun hmem => absurd (hblanks _ hmem) (by decide), h⟩
  have htrim : trimBlanks (latin1 (blanks ++ part)) = trimBlanks (latin1 part) := by
    have hspaces : ∀ c ∈ latin1 blanks, isBlank c = true := by
      intro c hc
      obtain ⟨b, hb, rfl⟩ := List.mem_map.1 hc
      rw [hblanks b hb]
      decide
    have happend : latin1 (blanks ++ part) = latin1 blanks ++ latin1 part := List.map_append
    rw [happend, trimBlanks, List.dropWhile_append_of_pos hspaces, trimBlanks]
  rw [cookiePairs, List.splitOn_eq_singleton (separator_latin1 hall), cookiePairs,
    List.splitOn_eq_singleton (separator_latin1 h)]
  simp only [List.filterMap_cons, List.filterMap_nil, htrim]

/-! ### Tokens -/

theorem trimBlanks_of_forall {l : List Char} (h : ∀ c ∈ l, isBlank c = false) : trimBlanks l = l := by
  have hdrop : l.dropWhile isBlank = l := by
    cases l with
    | nil => rfl
    | cons c l => exact List.dropWhile_cons_of_neg (by simp [h c List.mem_cons_self])
  rw [trimBlanks, hdrop, List.rdropWhile_eq_self_iff]
  intro hne
  simp [h _ (List.getLast_mem hne)]

theorem base64Alphabet_visible : ∀ c ∈ base64Alphabet true,
    (32 ≤ c.toNat ∧ c.toNat < 127) ∧ isBlank c = false ∧ c ≠ ';' := by
  have hall : (base64Alphabet true).all (fun c => decide (32 ≤ c.toNat) && decide (c.toNat < 127) &&
      !isBlank c && decide (c ≠ ';')) = true := by
    decide
  intro c hc
  have hdigit := List.all_eq_true.1 hall c hc
  simpa [and_assoc] using hdigit

/-- Visible characters that end no part and are no blank. -/
theorem tokenPair_chars {name : String} (hname : ∀ c ∈ name.toList, c ∈ base64Alphabet true)
    (bytes : Vector UInt8 32) : ∀ c ∈ name.toList ++ '=' :: (generateToken bytes).toList,
      (32 ≤ c.toNat ∧ c.toNat < 127) ∧ isBlank c = false ∧ c ≠ ';' := by
  intro c hc
  rcases List.mem_append.1 hc with hc | hc
  · exact base64Alphabet_visible c (hname c hc)
  · rcases List.mem_cons.1 hc with rfl | hc
    · simp [isBlank]
    · exact base64Alphabet_visible c (token_chars hc)

theorem plain_token {name : String} (hname : ∀ c ∈ name.toList, c ∈ base64Alphabet true)
    (bytes : Vector UInt8 32) : Plain (name, generateToken bytes) := by
  have hchars := tokenPair_chars hname bytes
  have hequals : '=' ∉ base64Alphabet true := by decide
  refine ⟨trimBlanks_of_forall fun c hc => (hchars c hc).2.1, fun hmem => ?_, fun hmem => ?_,
    fun c hc => ?_⟩
  · exact hequals (hname _ hmem)
  · exact (hchars _ hmem).2.2 rfl
  · have hlt := (hchars c hc).1
    omega

theorem pairVisible_token {name : String} (hname : ∀ c ∈ name.toList, c ∈ base64Alphabet true)
    (bytes : Vector UInt8 32) : PairVisible (name, generateToken bytes) := by
  refine fun c hc => .inl (tokenPair_chars hname bytes c ?_).1
  rcases List.mem_append.1 hc with hc | hc
  · exact List.mem_append_left _ hc
  · exact List.mem_append_right _ (List.mem_cons_of_mem _ hc)

/-- The line is the text. -/
theorem utf8_pair {name value : String} (h : ∀ c ∈ name.toList ++ '=' :: value.toList, c.toNat < 128) :
    utf8 (name ++ "=" ++ value) = pairLine (name, value) := by
  have htext : (name ++ "=" ++ value).toList = name.toList ++ '=' :: value.toList := by
    simp
  rw [utf8_of_ascii (by rwa [htext]), htext, pairLine]

theorem utf8_tokenPair {name : String} (hname : ∀ c ∈ name.toList, c ∈ base64Alphabet true)
    (bytes : Vector UInt8 32) :
    utf8 (name ++ "=" ++ generateToken bytes) = pairLine (name, generateToken bytes) := by
  refine utf8_pair fun c hc => ?_
  have hlt := (tokenPair_chars hname bytes c hc).1
  omega

theorem csrfCookie_chars : ∀ c ∈ Csrf.csrfCookie.toList, c ∈ base64Alphabet true := by
  have hall : "sharp_csrf".toList.all (base64Alphabet true).contains = true := by decide
  simpa [Csrf.csrfCookie] using hall

theorem sessionCookie_chars : ∀ c ∈ Session.sessionCookie.toList, c ∈ base64Alphabet true := by
  have hall : "sharp_session".toList.all (base64Alphabet true).contains = true := by decide
  simpa [Session.sessionCookie] using hall

/-- One token in a line is read. -/
theorem get_tokenPair {name : String} (hname : ∀ c ∈ name.toList, c ∈ base64Alphabet true)
    (authorization : Option (List UInt8)) (bytes : Vector UInt8 32) :
    get ⟨authorization, [utf8 (name ++ "=" ++ generateToken bytes)]⟩ name =
      some (generateToken bytes) := by
  have hvisible := visible_pairLine (pairVisible_token hname bytes)
  rw [utf8_tokenPair hname, get_eq, List.filter_cons_of_pos (by simpa using hvisible),
    List.filter_nil, namedPairs, List.flatMap_singleton,
    cookiePairs_pairLine (plain_token hname bytes)]
  simp [generateToken_ne_empty]

/-- Two tokens in a line are read. -/
theorem get_tokenPairs {name name' : String} (hname : ∀ c ∈ name.toList, c ∈ base64Alphabet true)
    (hname' : ∀ c ∈ name'.toList, c ∈ base64Alphabet true) (hne : name ≠ name')
    (authorization : Option (List UInt8)) (bytes bytes' : Vector UInt8 32) {headers : HeaderMap}
    (h : headers = ⟨authorization, [utf8 (name ++ "=" ++ generateToken bytes ++ "; " ++
      (name' ++ "=" ++ generateToken bytes'))]⟩) :
    get headers name = some (generateToken bytes) ∧
      get headers name' = some (generateToken bytes') := by
  have hfirst := plain_token hname bytes
  have hsecond := plain_token hname' bytes'
  have hline : utf8 (name ++ "=" ++ generateToken bytes ++ "; " ++
      (name' ++ "=" ++ generateToken bytes')) = [0x3B].intercalate
        [pairLine (name, generateToken bytes), [0x20] ++ pairLine (name', generateToken bytes')] := by
    have hblank : utf8 "; " = [0x3B, 0x20] := by decide
    rw [utf8_append, utf8_append, utf8_tokenPair hname, utf8_tokenPair hname', hblank]
    simp [List.intercalate]
  have hpairs : cookiePairs ([0x3B].intercalate
      [pairLine (name, generateToken bytes), [0x20] ++ pairLine (name', generateToken bytes')]) =
        [(name, generateToken bytes), (name', generateToken bytes')] := by
    rw [cookiePairs_intercalate (by simp)
      (by simp [separator_pairLine hfirst, separator_pairLine hsecond]), List.flatMap_cons,
      List.flatMap_singleton, cookiePairs_blanks (by simp) (separator_pairLine hsecond),
      cookiePairs_pairLine hfirst, cookiePairs_pairLine hsecond, List.singleton_append]
  have hvisible : Visible ([0x3B].intercalate
      [pairLine (name, generateToken bytes), [0x20] ++ pairLine (name', generateToken bytes')]) := by
    have hblank := visible_pairLine (pairVisible_token hname' bytes')
    rw [visible_iff] at hblank
    rw [visible_intercalate (by simp)]
    simp only [List.forall_mem_cons, visible_iff]
    refine ⟨(visible_iff _).1 (visible_pairLine (pairVisible_token hname bytes)), ?_, by simp⟩
    simpa using hblank
  rw [h, hline, get_eq, get_eq, List.filter_cons_of_pos (by simpa using hvisible), List.filter_nil,
    namedPairs, namedPairs, List.flatMap_singleton, hpairs]
  simp [hne, hne.symm, generateToken_ne_empty]

/-! ### Independence -/

/-- Every part of every line is a pair. -/
def MadeOfPairs (headers : HeaderMap) : Prop :=
  ∀ line ∈ headers.cookie, ∀ part ∈ line.splitOn 0x3B, 0x3D ∈ part

/-- A change to the other pairs, and to the lines without a pair of the name: the pairs of the name
stay in their lines, in the same order. -/
def ForeignEdit (name : String) (headers headers' : HeaderMap) : Prop :=
  (ownLines name headers'.cookie).map (ownPairs name) =
    (ownLines name headers.cookie).map (ownPairs name)

/-- The same of these lines are visible. -/
def SameVisibility (name : String) (headers headers' : HeaderMap) : Prop :=
  (ownLines name headers'.cookie).map (fun line => decide (Visible line)) =
    (ownLines name headers.cookie).map fun line => decide (Visible line)

/-- No change to the other pairs changes what is read. -/
def Independent (name : String) (headers : HeaderMap) : Prop :=
  ∀ headers', MadeOfPairs headers' → ForeignEdit name headers headers' →
    get headers' name = get headers name

/-- The line says something, if it is visible, and its pairs for the name are. -/
structure Exposed (name : String) (line : List UInt8) : Prop where
  visible : ∀ p ∈ ownPairs name line, PairVisible p
  value : valueIn name (ownPairs name line) ≠ none

section edits

variable {name : String} {headers headers' : HeaderMap} {line : List UInt8}
  {lines lines' : List (List UInt8)}

/-- Lines with the same pairs of the name, of which the same are visible, say the same. -/
theorem visiblePairs_eq (hpairs : lines'.map (ownPairs name) = lines.map (ownPairs name))
    (hvisible : lines'.map (fun line => decide (Visible line)) =
      lines.map fun line => decide (Visible line)) :
    (lines'.filter Visible).flatMap (ownPairs name) = (lines.filter Visible).flatMap (ownPairs name) := by
  induction lines' generalizing lines with
  | nil =>
      obtain rfl : lines = [] := by simpa using hpairs.symm
      rfl
  | cons line' lines' ih =>
      cases lines with
      | nil => simp at hpairs
      | cons line lines =>
          rw [List.map_cons, List.map_cons, List.cons.injEq] at hpairs hvisible
          have hrest := ih hpairs.2 hvisible.2
          rw [decide_eq_decide] at hvisible
          by_cases hv : Visible line
          · rw [List.filter_cons_of_pos (by simpa using hvisible.1.2 hv),
              List.filter_cons_of_pos (by simpa using hv), List.flatMap_cons, List.flatMap_cons, hrest,
              hpairs.1]
          · rw [List.filter_cons_of_neg (by simpa using fun h => hv (hvisible.1.1 h)),
              List.filter_cons_of_neg (by simpa using hv), hrest]

theorem ForeignEdit.get_eq (h : ForeignEdit name headers headers')
    (hvisible : SameVisibility name headers headers') : get headers' name = get headers name := by
  rw [get_eq_valueIn, get_eq_valueIn, visiblePairs_eq h hvisible]

theorem ownLines_mem (h : line ∈ ownLines name lines) :
    line ∈ lines ∧ ownPairs name line ≠ [] := by
  rw [ownLines, List.mem_filter] at h
  simpa using h

/-- What is read was exposed. -/
theorem exposed_of_get {value : String} (h : get headers name = some value) :
    ∃ line ∈ ownLines name headers.cookie, Exposed name line := by
  rw [get_eq_valueIn] at h
  generalize ownLines name headers.cookie = lines at h ⊢
  induction lines with
  | nil => cases h
  | cons line lines ih =>
      have hlater (h : valueIn name ((lines.filter Visible).flatMap (ownPairs name)) = some value) :
          ∃ l ∈ line :: lines, Exposed name l := by
        obtain ⟨l, hl, hexposed⟩ := ih h
        exact ⟨l, List.mem_cons_of_mem _ hl, hexposed⟩
      by_cases hv : Visible line
      · rw [List.filter_cons_of_pos (by simpa using hv), List.flatMap_cons, valueIn,
          List.find?_append] at h
        -- The first pair with just this name decides.
        cases hfirst : (ownPairs name line).find? fun p => p.1 = name with
        | none =>
            rw [hfirst, Option.none_or] at h
            exact hlater h
        | some p =>
            refine ⟨line, List.mem_cons_self, fun q hq => ?_, ?_⟩
            · exact pairVisible_of_mem hv (List.mem_filter.1 hq).1
            · rw [hfirst, Option.some_or] at h
              rw [valueIn, hfirst, h]
              exact Option.some_ne_none value
      · rw [List.filter_cons_of_neg (by simpa using hv)] at h
        exact hlater h

theorem plain_of_own {p : String × String} (hp : p ∈ ownPairs name line) : Plain p :=
  plain_of_mem (List.mem_filter.1 hp).1

/-- A foreign pair that is not visible. -/
def foreignPair (name : String) : String × String :=
  if trimName name = "x" then ("y", "ÿ") else ("x", "ÿ")

theorem plain_foreignPair (name : String) : Plain (foreignPair name) := by
  rw [foreignPair]
  split_ifs <;> exact ⟨by decide, by decide, by decide, by simp⟩

theorem foreignPair_ne (name : String) : trimName (foreignPair name).1 ≠ trimName name := by
  rw [foreignPair]
  split_ifs with hx
  · rw [hx]
    decide
  · exact fun h => hx (h ▸ by decide)

theorem not_visible_foreignPair (name : String) : ¬Visible (pairLine (foreignPair name)) := by
  rw [foreignPair]
  split_ifs <;> decide

/-- The pairs of the name alone. -/
def shownLine (name : String) (line : List UInt8) : List UInt8 := lineOf (ownPairs name line)

/-- The pairs of the name, after a pair that hides them. -/
def hiddenLine (name : String) (line : List UInt8) : List UInt8 :=
  lineOf (foreignPair name :: ownPairs name line)

theorem ownPairs_idem (name : String) (line : List UInt8) :
    (ownPairs name line).filter (fun p => trimName p.1 = trimName name) = ownPairs name line := by
  rw [ownPairs, List.filter_filter]
  simp

theorem ownPairs_shownLine (hne : ownPairs name line ≠ []) :
    ownPairs name (shownLine name line) = ownPairs name line := by
  rw [ownPairs, shownLine, cookiePairs_lineOf hne fun p hp => plain_of_own hp, ownPairs_idem]

theorem plain_hiddenLine : ∀ p ∈ foreignPair name :: ownPairs name line, Plain p :=
  List.forall_mem_cons.2 ⟨plain_foreignPair name, fun _ hp => plain_of_own hp⟩

theorem ownPairs_hiddenLine : ownPairs name (hiddenLine name line) = ownPairs name line := by
  rw [ownPairs, hiddenLine, cookiePairs_lineOf (by simp) plain_hiddenLine,
    List.filter_cons_of_neg (by simpa using foreignPair_ne name), ownPairs_idem]

theorem not_visible_hiddenLine : ¬Visible (hiddenLine name line) := by
  rw [hiddenLine, visible_lineOf (by simp)]
  exact fun h => not_visible_foreignPair name (h _ List.mem_cons_self)

theorem visible_shownLine (hne : ownPairs name line ≠ []) (h : ∀ p ∈ ownPairs name line, PairVisible p) :
    Visible (shownLine name line) := by
  rw [shownLine, visible_lineOf hne]
  exact fun p hp => visible_pairLine (h p hp)

/-- Lines that all have pairs of the name. -/
theorem ownLines_eq (h : lines'.map (ownPairs name) = (ownLines name lines).map (ownPairs name)) :
    ownLines name lines' = lines' := by
  rw [ownLines, List.filter_eq_self]
  intro line hline
  have hmem : ownPairs name line ∈ (ownLines name lines).map (ownPairs name) :=
    h ▸ List.mem_map_of_mem hline
  obtain ⟨l, hl, heq⟩ := List.mem_map.1 hmem
  simpa [← heq] using (ownLines_mem hl).2

theorem hiddenLines_filter (lines : List (List UInt8)) :
    (lines.map (hiddenLine name)).filter (fun line => Visible line) = [] := by
  rw [List.filter_eq_nil_iff]
  intro line hline
  obtain ⟨l, -, rfl⟩ := List.mem_map.1 hline
  simpa using not_visible_hiddenLine

/-- Every cookie can be hidden. -/
theorem exists_hidden (name : String) (headers : HeaderMap) :
    ∃ headers', MadeOfPairs headers' ∧ ForeignEdit name headers headers' ∧ get headers' name = none := by
  have hown : ((ownLines name headers.cookie).map (hiddenLine name)).map (ownPairs name) =
      (ownLines name headers.cookie).map (ownPairs name) := by
    rw [List.map_map]
    exact List.map_congr_left fun _ _ => ownPairs_hiddenLine
  refine ⟨{ headers with cookie := (ownLines name headers.cookie).map (hiddenLine name) }, ?_, ?_, ?_⟩
  · intro line hline
    obtain ⟨l, -, rfl⟩ := List.mem_map.1 hline
    exact parts_lineOf (by simp) plain_hiddenLine
  · rw [ForeignEdit, ownLines_eq hown, hown]
  · rw [get_eq_valueIn, ownLines_eq hown, hiddenLines_filter]
    rfl

/-- Every line that is exposed can be the only one that is visible. -/
theorem exists_shown (hline : line ∈ headers.cookie) (h : Exposed name line) :
    ∃ headers', MadeOfPairs headers' ∧ ForeignEdit name headers headers' ∧ get headers' name ≠ none := by
  have hne : ownPairs name line ≠ [] := fun hnil => h.value (by rw [hnil]; rfl)
  have hmem : line ∈ ownLines name headers.cookie := List.mem_filter.2 ⟨hline, by simpa using hne⟩
  obtain ⟨before, after, hsplit⟩ := List.append_of_mem hmem
  have hown : (before.map (hiddenLine name) ++ shownLine name line :: after.map (hiddenLine name)).map
      (ownPairs name) = (ownLines name headers.cookie).map (ownPairs name) := by
    rw [hsplit, List.map_append, List.map_cons, List.map_append, List.map_cons, List.map_map,
      List.map_map, ownPairs_shownLine hne]
    have hhidden : ownPairs name ∘ hiddenLine name = ownPairs name :=
      funext fun _ => ownPairs_hiddenLine
    rw [hhidden]
  refine ⟨⟨headers.authorization,
    before.map (hiddenLine name) ++ shownLine name line :: after.map (hiddenLine name)⟩, ?_, ?_, ?_⟩
  · intro l hl
    rcases List.mem_append.1 hl with hl | hl
    · obtain ⟨l, -, rfl⟩ := List.mem_map.1 hl
      exact parts_lineOf (by simp) plain_hiddenLine
    · rcases List.mem_cons.1 hl with rfl | hl
      · exact parts_lineOf hne fun p hp => plain_of_own hp
      · obtain ⟨l, -, rfl⟩ := List.mem_map.1 hl
        exact parts_lineOf (by simp) plain_hiddenLine
  · rw [ForeignEdit, ownLines_eq hown, hown]
  · rw [get_eq_valueIn, ownLines_eq hown, List.filter_append, hiddenLines_filter, List.nil_append,
      List.filter_cons_of_pos (by simpa using visible_shownLine hne h.visible), hiddenLines_filter,
      List.flatMap_singleton, ownPairs_shownLine hne]
    exact h.value

end edits

/-- **Reading one cookie depends on the others only through the bytes of its lines.**  No change to
the other pairs matters while the same lines of the cookie are visible; and no change at all matters
exactly if no line is exposed, for a foreign pair hides what an exposed line says. -/
theorem cookie_reading (name : String) :
    (∀ headers headers', ForeignEdit name headers headers' → SameVisibility name headers headers' →
      get headers' name = get headers name) ∧
    ∀ headers, Independent name headers ↔ ¬∃ line ∈ headers.cookie, Exposed name line := by
  refine ⟨fun headers headers' hedit hvisible => hedit.get_eq hvisible, fun headers => ?_⟩
  constructor
  · rintro hindependent ⟨line, hline, hexposed⟩
    obtain ⟨hidden, hpairs, hedit, hnone⟩ := exists_hidden name headers
    obtain ⟨shown, hpairs', hedit', hsome⟩ := exists_shown hline hexposed
    have heq := (hindependent hidden hpairs hedit).trans (hindependent shown hpairs' hedit').symm
    exact hsome (heq.symm.trans hnone)
  · intro hnothing headers' hpairs hedit
    -- The lines of both requests have the same pairs of the name.
    have hnone (h : HeaderMap) (hh : ForeignEdit name headers h) : get h name = none := by
      rw [Option.eq_none_iff_forall_ne_some]
      intro value hvalue
      obtain ⟨line, hline, hexposed⟩ := exposed_of_get hvalue
      have hmem : ownPairs name line ∈ (ownLines name headers.cookie).map (ownPairs name) :=
        hh ▸ List.mem_map_of_mem hline
      obtain ⟨l, hl, heq⟩ := List.mem_map.1 hmem
      refine hnothing ⟨l, (ownLines_mem hl).1, ?_, ?_⟩
      · rw [heq]
        exact hexposed.visible
      · rw [heq]
        exact hexposed.value
    rw [hnone headers' hedit, hnone headers rfl]

end CookieManager

/-- The header `sharp_session=abc`, and the same with the foreign pair `x=ÿ`. -/
theorem foreign_cookie_hides : ¬∀ (name : String) (headers headers' : HeaderMap),
    CookieManager.MadeOfPairs headers → CookieManager.MadeOfPairs headers' →
      CookieManager.ForeignEdit name headers headers' →
        CookieManager.get headers' name = CookieManager.get headers name := by
  intro h
  have hpairs : CookieManager.MadeOfPairs ⟨none, [utf8 "sharp_session=abc"]⟩ := by
    rw [CookieManager.MadeOfPairs]
    decide +kernel
  have hpairs' : CookieManager.MadeOfPairs ⟨none, [utf8 "sharp_session=abc; x=" ++ [0xFF]]⟩ := by
    rw [CookieManager.MadeOfPairs]
    decide +kernel
  have hedit : CookieManager.ForeignEdit Session.sessionCookie ⟨none, [utf8 "sharp_session=abc"]⟩
      ⟨none, [utf8 "sharp_session=abc; x=" ++ [0xFF]]⟩ := by
    rw [CookieManager.ForeignEdit]
    decide +kernel
  have hread := h Session.sessionCookie _ _ hpairs hpairs' hedit
  revert hread
  decide +kernel

end SharpOauth
