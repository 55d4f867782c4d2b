import SharpOauth.CookieReading
import SharpOauth.ClientRegistry

/-! # The lines of a text

A list of lines travels in one text: it is joined at line feeds, the other side may send every line
feed as a carriage return and a line feed (`Sent`), and the text is taken apart again, its lines
trimmed and its blank lines dropped (`itemLines`).

A line survives that when it is an `Item`: trimmed, not empty, and without a line feed.  Other
control characters are harmless, a carriage return in the middle of a line included.  What
`itemLines` gives are items (`item_of_mem_itemLines`), and a list of items comes back as it was
(`itemLines_sent`). -/

namespace SharpOauth

/-- The lines of a text, trimmed; blank ones do not count. -/
def itemLines (text : String) : List String := ((lines text).map trim).filter (· ≠ "")

/-- A line that stands for itself. -/
structure Item (s : String) : Prop where
  trimmed : trim s = s
  nonempty : s ≠ ""
  oneLine : '\n' ∉ s.toList

/-- The second text is the first one with each line feed sent as `\n` or as `\r\n`. -/
inductive Sent : List Char → List Char → Prop where
  | nil : Sent [] []
  | char {l l' : List Char} (c : Char) (hc : c ≠ '\n') (h : Sent l l') : Sent (c :: l) (c :: l')
  | lf {l l' : List Char} (h : Sent l l') : Sent ('\n' :: l) ('\n' :: l')
  | crlf {l l' : List Char} (h : Sent l l') : Sent ('\n' :: l) ('\r' :: '\n' :: l')

/-! ### Trimming -/

theorem trim_sublist (s : String) : (trim s).toList.Sublist s.toList := by
  have htrim : (trim s).toList = (s.toList.dropWhile isWhitespace).rdropWhile isWhitespace := by
    rw [trim, String.toList_ofList]
    rfl
  rw [htrim]
  exact (List.rdropWhile_prefix _ _).sublist.trans (List.dropWhile_sublist _)

/-! ### Lines -/

/-- A carriage return at the end of a line is whitespace. -/
theorem trim_concat_cr (l : List Char) : trim (String.ofList (l ++ ['\r'])) = trim (String.ofList l) := by
  have hcr : isWhitespace '\r' = true := by decide
  simp only [trim, String.toList_ofList]
  by_cases hblank : l.dropWhile isWhitespace = []
  · simp [List.dropWhile_append, hblank, hcr]
  · simp [List.dropWhile_append, hblank, hcr]

theorem trim_stripCr (l : List Char) : trim (String.ofList (stripCr l)) = trim (String.ofList l) := by
  rw [stripCr]
  split_ifs with hcr
  · conv_rhs => rw [← List.dropLast_append_getLast? '\r' hcr]
    exact (trim_concat_cr _).symm
  · rfl

/-- The items of a text stand between its line feeds. -/
theorem itemLines_eq (text : String) : itemLines text =
    ((text.toList.splitOn '\n').map fun l => trim (String.ofList l)).filter (· ≠ "") := by
  obtain ⟨parts, last, hparts⟩ : ∃ parts last, text.toList.splitOn '\n' = parts ++ [last] :=
    ⟨_, _, (List.dropLast_append_getLast (List.splitOn_ne_nil '\n' text.toList)).symm⟩
  have hlines : lines text = (parts.map stripCr ++ (some last).toList.filter (· ≠ [])).map String.ofList := by
    rw [lines, hparts]
    by_cases hlast : last = [] <;> simp [hlast]
  have hempty : trim "" = "" := by decide
  rw [itemLines, hlines, hparts]
  by_cases hlast : last = [] <;>
    simp [hlast, Function.comp_def, trim_stripCr, hempty]

theorem item_of_mem_itemLines {text s : String} (h : s ∈ itemLines text) : Item s := by
  rw [itemLines_eq] at h
  obtain ⟨hmem, hne⟩ := List.mem_filter.1 h
  obtain ⟨part, hpart, rfl⟩ := List.mem_map.1 hmem
  refine ⟨trim_trim _, by simpa using hne, fun hlf => (mem_splitOn _ part hpart).1 ?_⟩
  simpa using (trim_sublist (String.ofList part)).subset hlf

/-! ### There and back -/

theorem Sent.line {l m m' : List Char} (hl : '\n' ∉ l) (h : Sent m m') : Sent (l ++ m) (l ++ m') := by
  induction l with
  | nil => exact h
  | cons c l ih =>
      rw [List.mem_cons, not_or] at hl
      exact .char c (Ne.symm hl.1) (ih hl.2)

/-- A part of the sent text is a part of the text, perhaps with a carriage return at its end. -/
theorem Sent.forall₂_splitOn {l l' : List Char} (h : Sent l l') :
    List.Forall₂ (fun a b => b = a ∨ b = a ++ ['\r']) (l.splitOn '\n') (l'.splitOn '\n') := by
  induction h with
  | nil => exact .cons (.inl rfl) .nil
  | @char l l' c hc h ih =>
      obtain ⟨a, as, ha⟩ := List.exists_cons_of_ne_nil (List.splitOn_ne_nil '\n' l)
      obtain ⟨b, bs, hb⟩ := List.exists_cons_of_ne_nil (List.splitOn_ne_nil '\n' l')
      simp only [List.splitOn_cons_eq_if_modifyHead, beq_iff_eq, if_neg hc]
      rw [ha, hb] at ih ⊢
      obtain ⟨hab, hrest⟩ := List.forall₂_cons.1 ih
      refine .cons ?_ hrest
      cases hab with
      | inl hab => exact .inl (congrArg _ hab)
      | inr hab => exact .inr (congrArg _ hab)
  | lf h ih =>
      simp only [List.splitOn_cons_eq_if_modifyHead, beq_self_eq_true, if_true]
      exact .cons (.inl rfl) ih
  | crlf h ih =>
      have hcr : ('\r' == '\n') = false := by decide
      simp only [List.splitOn_cons_eq_if_modifyHead, beq_self_eq_true, if_true, hcr]
      exact .cons (.inr rfl) ih

/-- What is read of one part. -/
theorem Item.trim_part {s : String} (h : Item s) {part : List Char}
    (hpart : part = s.toList ∨ part = s.toList ++ ['\r']) : trim (String.ofList part) = s := by
  have hself : trim (String.ofList s.toList) = s := by rw [String.ofList_toList, h.trimmed]
  cases hpart with
  | inl hpart => rw [hpart, hself]
  | inr hpart => rw [hpart, trim_concat_cr, hself]

theorem map_trim_parts {items : List String} (h : ∀ s ∈ items, Item s) {parts : List (List Char)}
    (hparts : List.Forall₂ (fun a b => b = a ∨ b = a ++ ['\r']) (items.map String.toList) parts) :
    parts.map (fun part => trim (String.ofList part)) = items := by
  induction items generalizing parts with
  | nil =>
      cases hparts
      rfl
  | cons s items ih =>
      rw [List.map_cons] at hparts
      cases hparts with
      | cons hpart hrest =>
          rw [List.map_cons, (h s List.mem_cons_self).trim_part hpart,
            ih (fun x hx => h x (List.mem_cons_of_mem _ hx)) hrest]

/-- **A list of items comes back** from its text, however the line feeds were sent. -/
theorem itemLines_sent {items : List String} (hne : items ≠ []) (h : ∀ s ∈ items, Item s)
    {text : String} (hsent : Sent ("\n".intercalate items).toList text.toList) :
    itemLines text = items := by
  have hsplit := hsent.forall₂_splitOn
  have htext : ("\n".intercalate items).toList.splitOn '\n' = items.map String.toList := by
    rw [String.toList_intercalate]
    refine List.splitOn_intercalate '\n' (fun l hl => ?_) (by simpa using hne)
    obtain ⟨s, hs, rfl⟩ := List.mem_map.1 hl
    exact (h s hs).oneLine
  rw [htext] at hsplit
  rw [itemLines_eq, map_trim_parts h hsplit, List.filter_eq_self]
  exact fun s hs => by simpa using (h s hs).nonempty

end SharpOauth
