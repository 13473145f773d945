import Mathlib.Tactic

set_option autoImplicit false

/-! # Positions in a filtered list

A list and the list of its elements that satisfy a predicate number the same elements differently.
The two numberings agree on an element exactly as long as the filter has dropped nothing before it. The first element that is left is the one that
a search finds.
-/

namespace Filtered

variable {α : Type}

/-! ## Positions of a sublist -/

/-- A sublist stands in a list of distinct elements at increasing places, each at least as far on
as in the sublist. -/
theorem exists_places {l' l : List α} (hsub : l'.Sublist l) :
    ∃ place : Nat → Nat, StrictMono place ∧ (∀ i, i ≤ place i) ∧ ∀ i, l'[i]? = l[place i]? := by
  obtain ⟨f, hf⟩ := List.sublist_iff_exists_orderEmbedding_getElem?_eq.mp hsub
  exact ⟨f, f.strictMono, fun _ => f.strictMono.le_apply, hf⟩

/-- **A sublist that agrees at one place agrees before it.** -/
theorem agree_before {l' l : List α} (hsub : l'.Sublist l) (hnodup : l.Nodup) {r : Nat}
    (hr : r < l'.length) (heq : l'[r]? = l[r]?) {i : Nat} (hi : i ≤ r) : l'[i]? = l[i]? := by
  obtain ⟨place, hmono, hle, hplace⟩ := exists_places hsub
  have hlt : r < l.length := Nat.lt_of_lt_of_le hr hsub.length_le
  have hsame : r = place r := (List.getElem?_inj hlt hnodup).mp (heq.symm.trans (hplace r))
  -- the places up to `place r = r` are as many as the indices up to `r`
  have hfix : ∀ k, k ≤ r → place (r - k) ≤ r - k := by
    intro k hk
    induction k with
    | zero => exact hsame.ge
    | succ k ih =>
        have hbelow : place (r - (k + 1)) < place (r - k) := hmono (by omega)
        have := ih (by omega)
        omega
  have hplace_i : place i = i := by
    have := hfix (r - i) (by omega)
    rw [Nat.sub_sub_self hi] at this
    exact Nat.le_antisymm this (hle i)
  rw [hplace i, hplace_i]

/-! ## Filters -/

/-- A filter that keeps the first elements leaves them where they are. -/
theorem getElem?_filter_of_take {p : α → Bool} :
    ∀ (l : List α) (r : Nat), (∀ x ∈ l.take (r + 1), p x = true) → (l.filter p)[r]? = l[r]? := by
  intro l
  induction l with
  | nil =>
      intro r _
      simp
  | cons a l ih =>
      intro r h
      have ha : p a = true := h a (by simp)
      rw [List.filter_cons_of_pos ha]
      cases r with
      | zero => rfl
      | succ r =>
          rw [List.getElem?_cons_succ, List.getElem?_cons_succ]
          apply ih
          intro x hx
          exact h x (by simp [hx])

/-- **The two numberings agree** on an element of a filtered list if and only if the filter keeps
all elements up to it. -/
theorem getElem?_filter_iff {p : α → Bool} {l : List α} (hnodup : l.Nodup) {r : Nat}
    (hr : r < (l.filter p).length) :
    (l.filter p)[r]? = l[r]? ↔ ∀ x ∈ l.take (r + 1), p x = true := by
  constructor
  · intro heq x hx
    obtain ⟨i, hi, hget⟩ := List.mem_take_iff_getElem.mp hx
    have hat : l[i]? = some x := List.getElem?_eq_some_iff.mpr ⟨_, hget⟩
    have hle : i ≤ r := by omega
    have hsame := agree_before List.filter_sublist hnodup hr heq hle
    exact List.of_mem_filter (List.mem_of_getElem? (hsame.trans hat))
  · exact getElem?_filter_of_take l r

/-- The places of a filtered list are places of the list. -/
theorem lt_length_of_filter {p : α → Bool} {l : List α} {r : Nat}
    (hr : r < (l.filter p).length) : r < l.length :=
  Nat.lt_of_lt_of_le hr (List.length_filter_le p l)

/-! ## The first element -/

/-- **The first element that is found** passes a stricter test exactly if every element that could
be found stands behind one that passes it, or passes it itself. -/
theorem head?_filter_strict_iff {p q : α → Bool} (hqp : ∀ x, q x = true → p x = true) (l : List α) :
    (∀ x ∈ (l.filter p).head?, q x = true) ↔
      ∀ before x after, l = before ++ x :: after → p x = true → ∃ y ∈ before ++ [x], q y = true := by
  rw [List.head?_filter]
  constructor
  · rintro hfirst before x after rfl hx
    rw [List.find?_append, List.find?_cons_of_pos hx] at hfirst
    cases hbefore : before.find? p with
    | none =>
        rw [hbefore] at hfirst
        exact ⟨x, List.mem_append_right _ (List.mem_singleton_self x), hfirst x rfl⟩
    | some y =>
        rw [hbefore] at hfirst
        exact ⟨y, List.mem_append_left _ (List.mem_of_find?_eq_some hbefore), hfirst y rfl⟩
  · intro hall x hx
    obtain ⟨hpx, before, after, rfl, hbefore⟩ := List.find?_eq_some_iff_append.mp hx
    obtain ⟨y, hy, hqy⟩ := hall before x after rfl hpx
    rcases List.mem_append.mp hy with hy | hy
    · have hnot := hbefore y hy
      rw [hqp y hqy] at hnot
      cases hnot
    · rw [← List.mem_singleton.mp hy]
      exact hqy

end Filtered
