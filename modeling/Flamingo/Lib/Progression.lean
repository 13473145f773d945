import Mathlib.Tactic

set_option autoImplicit false

/-! # Arithmetic progressions below a bound

The elements `start`, `start + step`, `start + 2 • step`, … of an ordered group, up to a number of
them. `Exhausts` says of a list what it is for a list to be the progression up to a bound: it is
increasing with the given step, it stays below the bound, and it misses no element of the
progression that is below it.
-/

universe u

namespace Progression

variable {α : Type u} [AddCommGroup α]

/-- The first `n` elements. -/
def upTo (start step : α) (n : Nat) : List α := (List.range n).map (fun k => start + k • step)

theorem length_upTo (start step : α) (n : Nat) : (upTo start step n).length = n := by
  rw [upTo, List.length_map, List.length_range]

theorem getElem?_upTo {start step : α} {n k : Nat} {x : α} :
    (upTo start step n)[k]? = some x ↔ k < n ∧ x = start + k • step := by
  unfold upTo
  rw [List.getElem?_map, Option.map_eq_some_iff]
  constructor
  · rintro ⟨i, hi, rfl⟩
    obtain ⟨hlt, heq⟩ := List.getElem?_eq_some_iff.mp hi
    rw [List.getElem_range] at heq
    rw [List.length_range] at hlt
    exact ⟨hlt, by rw [heq]⟩
  · rintro ⟨hlt, rfl⟩
    exact ⟨k, List.getElem?_range hlt, rfl⟩

variable [LinearOrder α]

/-- The list is the progression below the bound. -/
structure Exhausts (l : List α) (start step bound : α) : Prop where
  increasing : l.Pairwise (· < ·)
  within : ∀ x ∈ l, start ≤ x ∧ x < bound
  consecutive : ∀ k x y, l[k]? = some x → l[k + 1]? = some y → y = x + step
  complete : ∀ k : Nat, start + k • step < bound → l[k]? = some (start + k • step)

variable [IsOrderedAddMonoid α]

/-- **The first elements up to the bound** are the progression below it. -/
theorem exhausts_upTo {start step bound : α} {n : Nat} (hstep : 0 < step)
    (hn : ∀ k : Nat, k < n ↔ start + k • step < bound) :
    Exhausts (upTo start step n) start step bound := by
  constructor
  · unfold upTo
    rw [List.pairwise_map]
    refine List.pairwise_lt_range.imp ?_
    intro i j hij
    exact add_lt_add_right (nsmul_lt_nsmul_left hstep hij) start
  · intro x hx
    obtain ⟨k, hk, rfl⟩ := List.mem_map.mp hx
    refine ⟨?_, (hn k).mp (List.mem_range.mp hk)⟩
    exact le_add_of_nonneg_right (nsmul_nonneg hstep.le k)
  · intro k x y hx hy
    obtain ⟨-, rfl⟩ := getElem?_upTo.mp hx
    obtain ⟨-, rfl⟩ := getElem?_upTo.mp hy
    rw [succ_nsmul, add_assoc]
  · intro k hk
    exact getElem?_upTo.mpr ⟨(hn k).mpr hk, rfl⟩

end Progression
