import Mathlib.Tactic

set_option autoImplicit false

/-! # Items packed with a separator before each

A list of items is written one after the other, each after a separator, and read back by splitting
at the separators. The split sees an empty component before the first separator, which is there
even if nothing was packed. So an item that is not empty is found exactly if it was packed, and the
empty item is found always.
-/

universe u

namespace Separated

variable {α : Type u}

/-- Each item after a separator. -/
def pack (sep : α) (items : List (List α)) : List α := items.flatMap (fun item => sep :: item)

theorem pack_cons (sep : α) (item : List α) (items : List (List α)) :
    pack sep (item :: items) = sep :: (item ++ pack sep items) := by
  rw [pack, List.flatMap_cons, List.cons_append]
  rfl

variable [BEq α] [LawfulBEq α]

/-- What follows an item without the separator is split on its own. -/
theorem splitOn_append_pack {sep : α} (item : List α) (items : List (List α)) (h : sep ∉ item)
    (hall : ∀ x ∈ items, sep ∉ x) : (item ++ pack sep items).splitOn sep = item :: items := by
  induction items generalizing item with
  | nil =>
      rw [pack, List.flatMap_nil, List.append_nil]
      exact List.splitOn_eq_singleton h
  | cons next items ih =>
      rw [pack_cons, List.splitOn_append_cons_self_of_not_mem h,
        ih next (hall next List.mem_cons_self) (fun x hx => hall x (List.mem_cons_of_mem _ hx))]

/-- **Unpacking** gives the items back, after an empty component. -/
theorem splitOn_pack {sep : α} {items : List (List α)} (h : ∀ x ∈ items, sep ∉ x) :
    (pack sep items).splitOn sep = [] :: items :=
  splitOn_append_pack [] items List.not_mem_nil h

theorem mem_splitOn_pack {sep : α} {items : List (List α)} (h : ∀ x ∈ items, sep ∉ x)
    {item : List α} (hne : item ≠ []) : item ∈ (pack sep items).splitOn sep ↔ item ∈ items := by
  rw [splitOn_pack h, List.mem_cons, or_iff_right hne]

/-- The empty component is there whatever was packed. -/
theorem nil_mem_splitOn_pack (sep : α) (items : List (List α)) :
    [] ∈ (pack sep items).splitOn sep := by
  cases items with
  | nil => exact List.mem_singleton_self _
  | cons item items =>
      rw [pack_cons, List.splitOn_cons_eq_if_modifyHead, if_pos (beq_self_eq_true sep)]
      exact List.mem_cons_self

end Separated
