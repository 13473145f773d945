import Mathlib

set_option autoImplicit false

/-! # Slots of equal width in equal periods

The time line is divided into periods of length `D`. In each of them the slots of width `w` lie one
after the other from the offset `a` on, and those that end by the offset `b ≤ D` stay within their
period. Two such slots with different beginnings have no point in common.
-/

namespace Slots

/-- The beginning of the `k`-th slot of the `n`-th period. -/
def start (D a w n : Int) (k : Nat) : Int := n * D + a + k * w

def slot (D a w n : Int) (k : Nat) : Set Int := Set.Ico (start D a w n k) (start D a w n k + w)

variable {D a b w : Int}

theorem disjoint_of_end_le {x y : Int} (h : x + w ≤ y) :
    Disjoint (Set.Ico x (x + w)) (Set.Ico y (y + w)) := by
  rw [Set.Ico_disjoint_Ico]
  exact (min_le_left _ _).trans (h.trans (le_max_right _ _))

/-- A slot that ends by `b` ends before the next period begins. -/
theorem end_le_of_lt (ha : 0 ≤ a) (hb : b ≤ D) (hD : 0 ≤ D) (hw : 0 ≤ w) {n n' : Int} {k k' : Nat}
    (hk : a + (k + 1) * w ≤ b) (hn : n < n') : start D a w n k + w ≤ start D a w n' k' := by
  have hperiod : (n + 1) * D ≤ n' * D := mul_le_mul_of_nonneg_right (by omega) hD
  have hfirst : (0 : Int) ≤ k' * w := by positivity
  unfold start
  calc n * D + a + k * w + w
      = n * D + (a + (k + 1) * w) := by ring
    _ ≤ n * D + D := by linarith
    _ = (n + 1) * D := by ring
    _ ≤ n' * D := hperiod
    _ ≤ n' * D + a + k' * w := by linarith

/-- Within a period a slot ends before the later ones begin. -/
theorem end_le_of_slot_lt (hw : 0 ≤ w) {n : Int} {k k' : Nat} (hk : k < k') :
    start D a w n k + w ≤ start D a w n k' := by
  have hle : ((k : Int) + 1) * w ≤ k' * w := mul_le_mul_of_nonneg_right (by omega) hw
  unfold start
  calc n * D + a + k * w + w
      = n * D + a + (k + 1) * w := by ring
    _ ≤ n * D + a + k' * w := by linarith

/-- **Different slots are disjoint.** -/
theorem disjoint_slot (ha : 0 ≤ a) (hb : b ≤ D) (hD : 0 ≤ D) (hw : 0 ≤ w) {n n' : Int}
    {k k' : Nat} (hk : a + (k + 1) * w ≤ b) (hk' : a + (k' + 1) * w ≤ b)
    (hne : start D a w n k ≠ start D a w n' k') :
    Disjoint (slot D a w n k) (slot D a w n' k') := by
  rcases lt_trichotomy n n' with hn | rfl | hn
  · exact disjoint_of_end_le (end_le_of_lt ha hb hD hw hk hn)
  · rcases lt_trichotomy k k' with hlt | rfl | hlt
    · exact disjoint_of_end_le (end_le_of_slot_lt hw hlt)
    · exact absurd rfl hne
    · exact (disjoint_of_end_le (end_le_of_slot_lt hw hlt)).symm
  · exact (disjoint_of_end_le (end_le_of_lt ha hb hD hw hk' hn)).symm

end Slots
