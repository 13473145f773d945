import Mathlib.Tactic

set_option autoImplicit false

/-! # Elements moved between two lists

The element in a row of one list is removed and appended to another. Nothing is lost, whatever the
row. The history of such moves determines the second list: what is in it stands in the order in which
it came.
-/

universe u

namespace Moves

variable {α : Type u}

/-- An element comes to the chosen ones, or goes back. -/
inductive Move (α : Type u)
  | add (x : α)
  | remove (x : α)

/-! ## One move -/

theorem perm_of_move {src : List α} {row : Nat} {x : α} (h : src[row]? = some x) (dst : List α) :
    (src.eraseIdx row ++ (dst ++ [x])).Perm (src ++ dst) := by
  obtain ⟨hlt, rfl⟩ := List.getElem?_eq_some_iff.mp h
  calc src.eraseIdx row ++ (dst ++ [src[row]])
      = (src.eraseIdx row ++ dst) ++ [src[row]] := (List.append_assoc _ _ _).symm
    List.Perm _ (src[row] :: (src.eraseIdx row ++ dst)) := List.perm_append_singleton _ _
    List.Perm _ (src ++ dst) := (List.getElem_cons_eraseIdx_perm hlt).append_right dst

variable [BEq α]

/-- Among different elements the row says which one is removed. -/
theorem eraseIdx_eq_erase [LawfulBEq α] {src : List α} (hnodup : src.Nodup) {row : Nat} {x : α}
    (h : src[row]? = some x) : src.eraseIdx row = src.erase x := by
  obtain ⟨hlt, rfl⟩ := List.getElem?_eq_some_iff.mp h
  exact (hnodup.erase_getElem row hlt).symm

/-! ## The history -/

/-- The chosen elements after one more move. -/
def Move.apply (chosen : List α) : Move α → List α
  | .add x => chosen ++ [x]
  | .remove x => chosen.erase x

/-- The chosen elements in the order in which they came. -/
def chosen (moves : List (Move α)) : List α := moves.foldl Move.apply []

theorem chosen_concat (moves : List (Move α)) (m : Move α) :
    chosen (moves ++ [m]) = m.apply (chosen moves) := by
  rw [chosen, List.foldl_append]
  rfl

end Moves
