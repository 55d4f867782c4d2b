import Mathlib

/-! # Chains of rows that point at their successors

A row has a key and may name the key of its successor.  `Linked` says that a list of rows is
a chain: every row but the last names the next one, and the last names none.  A chain has
exactly one row without a successor (`Linked.existsUnique_last`), and grows at that end
(`Linked.extend`). -/

namespace SharpOauth

variable {α κ : Type} (key : α → κ) (next : α → Option κ)

/-- Each row names the next one, and the last none. -/
def Linked : List α → Prop
  | [] => True
  | [x] => next x = none
  | x :: y :: rest => next x = some (key y) ∧ Linked (y :: rest)

variable {key next}

/-- The rows may change in everything but the keys and the links. -/
theorem Linked.map {l : List α} (h : Linked key next l) {f : α → α} (hkey : ∀ x, key (f x) = key x)
    (hnext : ∀ x, next (f x) = next x) : Linked key next (l.map f) := by
  induction l with
  | nil => trivial
  | cons x rest ih =>
      cases rest with
      | nil => exact (hnext x).trans h
      | cons y rest => exact ⟨by rw [hnext, hkey]; exact h.1, ih h.2⟩

/-- A row without a successor is the last one. -/
theorem Linked.eq_append {l : List α} (h : Linked key next l) {x : α} (hx : x ∈ l)
    (hnone : next x = none) : ∃ l₀, l = l₀ ++ [x] := by
  induction l with
  | nil => exact absurd hx List.not_mem_nil
  | cons y rest ih =>
      cases rest with
      | nil =>
          obtain rfl := List.mem_singleton.1 hx
          exact ⟨[], rfl⟩
      | cons z rest =>
          rcases List.mem_cons.1 hx with rfl | hx
          · exact absurd (hnone.symm.trans h.1) (by simp)
          · obtain ⟨l₀, hl₀⟩ := ih h.2 hx
            exact ⟨y :: l₀, by rw [hl₀, List.cons_append]⟩

/-- A successor is in the chain. -/
theorem Linked.exists_next {l : List α} (h : Linked key next l) {x : α} (hx : x ∈ l) {k : κ}
    (hk : next x = some k) : ∃ y ∈ l, key y = k := by
  induction l with
  | nil => exact absurd hx List.not_mem_nil
  | cons y rest ih =>
      cases rest with
      | nil =>
          obtain rfl := List.mem_singleton.1 hx
          exact absurd (hk.symm.trans h) (by simp)
      | cons z rest =>
          rcases List.mem_cons.1 hx with rfl | hx
          · exact ⟨z, by simp, Option.some.inj (h.1.symm.trans hk)⟩
          · obtain ⟨y', hy', hkey⟩ := ih h.2 hx
            exact ⟨y', List.mem_cons_of_mem y hy', hkey⟩

/-- A successor is not the first row. -/
theorem Linked.next_mem_tail {x : α} {rest : List α} (h : Linked key next (x :: rest)) {y : α}
    (hy : y ∈ x :: rest) {k : κ} (hk : next y = some k) : k ∈ rest.map key := by
  induction rest generalizing x with
  | nil =>
      obtain rfl := List.mem_singleton.1 hy
      exact absurd (hk.symm.trans h) (by simp)
  | cons z rest ih =>
      rcases List.mem_cons.1 hy with rfl | hy
      · rw [List.map_cons, Option.some.inj (hk.symm.trans h.1)]
        exact List.mem_cons_self
      · exact List.mem_cons_of_mem _ (ih h.2 hy)

/-- Each row is the successor of at most one row. -/
theorem Linked.next_inj {l : List α} (h : Linked key next l) (hnodup : (l.map key).Nodup) {x y : α}
    (hx : x ∈ l) (hy : y ∈ l) {k : κ} (hxk : next x = some k) (hyk : next y = some k) : x = y := by
  induction l with
  | nil => exact absurd hx List.not_mem_nil
  | cons z rest ih =>
      cases rest with
      | nil => rw [List.mem_singleton.1 hx, List.mem_singleton.1 hy]
      | cons u rest =>
          rw [List.map_cons] at hnodup
          have hfirst {v : α} (hv : v ∈ u :: rest) (hvk : next v = some (key u)) : False := by
            have htail := h.2.next_mem_tail hv hvk
            have hnodup' := (List.nodup_cons.1 hnodup).2
            rw [List.map_cons] at hnodup'
            exact (List.nodup_cons.1 hnodup').1 htail
          rcases List.mem_cons.1 hx with rfl | hx'
          · rcases List.mem_cons.1 hy with rfl | hy'
            · rfl
            · obtain rfl := Option.some.inj (hxk.symm.trans h.1)
              exact (hfirst hy' hyk).elim
          · rcases List.mem_cons.1 hy with rfl | hy'
            · obtain rfl := Option.some.inj (hyk.symm.trans h.1)
              exact (hfirst hx' hxk).elim
            · exact ih h.2 (List.nodup_cons.1 hnodup).2 hx' hy'

/-- **There is exactly one row without a successor.** -/
theorem Linked.existsUnique_last {l : List α} (h : Linked key next l) (hne : l ≠ []) :
    ∃! x, x ∈ l ∧ next x = none := by
  have hunique : ∀ x y, x ∈ l ∧ next x = none → y ∈ l ∧ next y = none → x = y := by
    rintro x y ⟨hx, hxnone⟩ ⟨hy, hynone⟩
    obtain ⟨l₀, rfl⟩ := h.eq_append hx hxnone
    obtain ⟨l₁, hl₁⟩ := h.eq_append hy hynone
    exact (List.append_inj_right' hl₁ rfl) |> List.singleton_inj.1
  refine existsUnique_of_exists_of_unique ?_ fun x y hx hy => hunique x y hx hy
  clear hunique
  induction l with
  | nil => exact absurd rfl hne
  | cons x rest ih =>
      cases rest with
      | nil => exact ⟨x, List.mem_cons_self, h⟩
      | cons y rest =>
          obtain ⟨z, hz, hnone⟩ := ih h.2 (by simp)
          exact ⟨z, List.mem_cons_of_mem x hz, hnone⟩

/-- A chain grows at its end: the last row `x`, changed to `x'`, names the new row `y`. -/
theorem Linked.extend {l : List α} {x x' y : α} (h : Linked key next (l ++ [x]))
    (hkey : key x' = key x) (hx' : next x' = some (key y)) (hy : next y = none) :
    Linked key next (l ++ [x', y]) := by
  induction l with
  | nil => exact ⟨hx', hy⟩
  | cons z rest ih =>
      cases rest with
      | nil => exact ⟨by rw [hkey]; exact h.1, hx', hy⟩
      | cons w rest => exact ⟨h.1, ih h.2⟩

end SharpOauth
