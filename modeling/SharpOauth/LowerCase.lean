import Mathlib.Tactic

/-! # Lower-casing of Unicode text

The tables of the Unicode character database are a parameter (`CaseTables`): the lower-case
mapping of a character, which may have several characters, and the two properties `Cased` and
`Case_Ignorable`.  `lowercase` maps a text character by character, except that a capital sigma
becomes a final sigma at the end of a word, so that its image depends on both sides of it.

Of the tables only three entries matter here (`CaseTables.Lawful`): an image consists of
characters that are their own image, and the two sigmas.  Then every character of a lower-cased
text is settled, and lower-casing a second time does nothing (`lowercase_lowercase`). -/

namespace SharpOauth

/-- The properties of characters that lower-casing consults. -/
structure CaseTables where
  /-- `Lowercase_Mapping` -/
  lower : Char → List Char
  /-- `Cased` -/
  cased : Char → Bool
  /-- `Case_Ignorable` -/
  ignorable : Char → Bool

namespace CaseTables

variable (t : CaseTables)

/-- The next letter that counts is a cased one. -/
def nextCased (l : List Char) : Bool := (l.dropWhile t.ignorable).head?.any t.cased

/-- The image of a capital sigma between the given characters; those before it come in reverse. -/
def sigma (before after : List Char) : Char :=
  if t.nextCased before && !t.nextCased after then 'ς' else 'σ'

/-- The images of the characters of a text, from the given position on. -/
def lowerFrom (before : List Char) : List Char → List Char
  | [] => []
  | c :: after =>
      (if c = 'Σ' then [t.sigma before after] else t.lower c) ++ lowerFrom (c :: before) after

/-- `str::to_lowercase` -/
def lowercase (s : String) : String := String.ofList (t.lowerFrom [] s.toList)

/-- What the tables say of their own images. -/
structure Lawful : Prop where
  fixed : ∀ c, ∀ d ∈ t.lower c, t.lower d = [d]
  sigma : t.lower 'Σ' = ['σ']
  finalSigma : t.lower 'ς' = ['ς']

/-- A character that lower-casing leaves alone wherever it stands. -/
def Settled (c : Char) : Prop := c ≠ 'Σ' ∧ t.lower c = [c]

variable {t}

theorem Lawful.settled_lower (ht : t.Lawful) {c d : Char} (h : d ∈ t.lower c) : t.Settled d := by
  have hfixed := ht.fixed c d h
  refine ⟨fun hd => ?_, hfixed⟩
  rw [hd, ht.sigma] at hfixed
  exact absurd hfixed (by decide)

theorem Lawful.settled_sigma (ht : t.Lawful) (before after : List Char) :
    t.Settled (t.sigma before after) := by
  unfold CaseTables.sigma
  split
  · exact ⟨by decide, ht.finalSigma⟩
  · refine ⟨by decide, ht.fixed 'Σ' 'σ' ?_⟩
    rw [ht.sigma]
    exact List.mem_singleton_self _

/-- Every character of a lower-cased text is settled. -/
theorem Lawful.settled_lowerFrom (ht : t.Lawful) (l before : List Char) :
    ∀ d ∈ t.lowerFrom before l, t.Settled d := by
  induction l generalizing before with
  | nil => exact fun d hd => absurd hd List.not_mem_nil
  | cons c after ih =>
      intro d hd
      rw [lowerFrom, List.mem_append] at hd
      cases hd with
      | inl hd =>
          split_ifs at hd with hc
          · rw [List.mem_singleton.1 hd]
            exact ht.settled_sigma _ _
          · exact ht.settled_lower hd
      | inr hd => exact ih _ d hd

theorem lowerFrom_of_settled (l before : List Char) (h : ∀ c ∈ l, t.Settled c) :
    t.lowerFrom before l = l := by
  induction l generalizing before with
  | nil => rfl
  | cons c after ih =>
      obtain ⟨hsigma, hlower⟩ := h c List.mem_cons_self
      rw [lowerFrom, if_neg hsigma, hlower, ih _ fun d hd => h d (List.mem_cons_of_mem _ hd)]
      rfl

/-- **Lower-casing twice is lower-casing once.** -/
theorem Lawful.lowercase_lowercase (ht : t.Lawful) (s : String) :
    t.lowercase (t.lowercase s) = t.lowercase s := by
  unfold lowercase
  rw [String.toList_ofList, lowerFrom_of_settled _ _ (ht.settled_lowerFrom _ _)]

end CaseTables

end SharpOauth
