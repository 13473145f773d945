import Mathlib.Data.List.TakeWhile
import Mathlib.Tactic

set_option autoImplicit false

/-! # Loops that return early

A loop that collects something of each element and returns at the first element of which it can make
nothing. What comes after the loop is then not done.
-/

universe u v

namespace EarlyReturn

variable {α : Type u} {β : Type v}

/-- What is collected, and whether the loop goes through to its end. -/
def collect (f : α → Option β) : List α → List β × Bool
  | [] => ([], true)
  | x :: l =>
      match f x with
      | none => ([], false)
      | some y => (y :: (collect f l).1, (collect f l).2)

theorem collect_cons_none {f : α → Option β} {x : α} (h : f x = none) (l : List α) :
    collect f (x :: l) = ([], false) := by
  rw [collect, h]

theorem collect_cons_some {f : α → Option β} {x : α} {y : β} (h : f x = some y) (l : List α) :
    collect f (x :: l) = (y :: (collect f l).1, (collect f l).2) := by
  rw [collect, h]

/-- **The elements before the first bad one** are collected. -/
theorem collect_eq (f : α → Option β) (l : List α) :
    collect f l = ((l.takeWhile (fun x => (f x).isSome)).filterMap f, l.all (fun x => (f x).isSome)) := by
  induction l with
  | nil => rfl
  | cons x l ih =>
      rw [List.all_cons]
      cases hx : f x with
      | none =>
          have hbad : ¬ (f x).isSome = true := by
            rw [hx]
            exact Bool.false_ne_true
          rw [collect_cons_none hx, List.takeWhile_cons, if_neg hbad, List.filterMap_nil,
            Option.isSome_none, Bool.false_and]
      | some y =>
          have hgood : (f x).isSome = true := by
            rw [hx]
            rfl
          rw [collect_cons_some hx, List.takeWhile_cons, if_pos hgood, List.filterMap_cons_some hx, ih,
            Option.isSome_some, Bool.true_and]

theorem collect_snd_iff (f : α → Option β) (l : List α) :
    (collect f l).2 = true ↔ ∀ x ∈ l, (f x).isSome := by
  rw [collect_eq]
  exact List.all_eq_true

/-- **The whole list** is worked off exactly if it has no bad element. -/
theorem collect_eq_filterMap_iff (f : α → Option β) (l : List α) :
    collect f l = (l.filterMap f, true) ↔ ∀ x ∈ l, (f x).isSome := by
  rw [← collect_snd_iff]
  constructor
  · intro h
    rw [h]
  · intro h
    have hgood := (collect_snd_iff f l).mp h
    have htake : l.takeWhile (fun x => (f x).isSome) = l := by
      rw [List.takeWhile_eq_self_iff]
      exact hgood
    refine Prod.ext ?_ h
    rw [collect_eq, htake]

end EarlyReturn
