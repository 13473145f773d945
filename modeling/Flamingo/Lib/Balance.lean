import Mathlib.Data.Multiset.AddSub
import Mathlib.Tactic

set_option autoImplicit false

/-! # Two collections in balance

Two collections of a system are to have the same elements. A step that changes both alike keeps
them equal exactly if they were, and a step after which one of them has forgotten an element keeps
them from being equal, as long as it has no more than the other: a step keeps the balance exactly if
what it loses on one side is nothing (`Alike.eq_iff_of_lost`).
-/

namespace Balance

universe u

variable {α : Type u} {a b a' b' : Multiset α}

/-- From `a` and `b` to `a'` and `b'` the same elements have gone and come. -/
def Alike (a b a' b' : Multiset α) : Prop := ∃ gone come, a' + gone = a + come ∧ b' + gone = b + come

theorem Alike.refl (a b : Multiset α) : Alike a b a b := ⟨0, 0, rfl, rfl⟩

theorem Alike.cons (x : α) (a b : Multiset α) : Alike a b (x ::ₘ a) (x ::ₘ b) :=
  ⟨0, {x}, by rw [add_zero, add_comm, Multiset.singleton_add],
    by rw [add_zero, add_comm, Multiset.singleton_add]⟩

theorem Alike.symm (h : Alike a b a' b') : Alike a' b' a b := by
  obtain ⟨gone, come, ha, hb⟩ := h
  exact ⟨come, gone, ha.symm, hb.symm⟩

/-- **Alike** steps keep the collections equal exactly if they were. -/
theorem Alike.eq_iff (h : Alike a b a' b') : a' = b' ↔ a = b := by
  obtain ⟨gone, come, ha, hb⟩ := h
  rw [← add_left_inj gone, ha, hb, add_left_inj]

theorem Alike.le_iff (h : Alike a b a' b') : a' ≤ b' ↔ a ≤ b := by
  obtain ⟨gone, come, ha, hb⟩ := h
  rw [← add_le_add_iff_right gone, ha, hb, add_le_add_iff_right]

/-- A step that is alike but for what the first collection loses leaves it no more than the second
has. -/
theorem Alike.le_of_lost {lost : Multiset α} (h : Alike a b (lost + a') b') (hle : a ≤ b) :
    a' ≤ b' :=
  (Multiset.le_add_left a' lost).trans (h.le_iff.mpr hle)

/-- **What is lost** on one side only is not made up for. -/
theorem Alike.eq_iff_of_lost {lost : Multiset α} (h : Alike a b (lost + a') b') (hle : a ≤ b) :
    a' = b' ↔ a = b ∧ lost = 0 := by
  rw [← h.eq_iff]
  constructor
  · intro heq
    have hlost : lost = 0 := by
      have hsum := h.le_iff.mpr hle
      rw [← heq] at hsum
      have hcard := Multiset.card_le_card hsum
      rw [Multiset.card_add] at hcard
      exact Multiset.card_eq_zero.mp (by omega)
    exact ⟨by rw [hlost, zero_add, heq], hlost⟩
  · rintro ⟨heq, rfl⟩
    rwa [zero_add] at heq

/-- A list that is appended to counts one element more. -/
theorem coe_append_singleton (l : List α) (x : α) : (↑(l ++ [x]) : Multiset α) = x ::ₘ ↑l := by
  rw [Multiset.cons_coe]
  exact Multiset.coe_eq_coe.mpr (List.perm_append_singleton x l)

/-- What the elements of a list contribute, with one of them taken away. -/
theorem coe_flatMap_eraseIdx {β : Type u} {l : List β} {i : Nat} {x : β} (h : l[i]? = some x)
    (f : β → List α) :
    (↑(l.flatMap f) : Multiset α) = ↑(f x) + ↑((l.eraseIdx i).flatMap f) := by
  obtain ⟨hlt, rfl⟩ := List.getElem?_eq_some_iff.mp h
  have hperm := ((List.getElem_cons_eraseIdx_perm hlt).flatMap_right f).symm
  rw [List.flatMap_cons] at hperm
  rw [Multiset.coe_add]
  exact Multiset.coe_eq_coe.mpr hperm

end Balance
