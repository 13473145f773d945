import Mathlib.Data.List.Sort
import Mathlib.Tactic

set_option autoImplicit false

/-! # Places in a stable sort

A stable sort leaves elements that are as large as each other in their order. So an element is put
behind the smaller ones and behind those of its own size that stood before it, and how many these are
is its place. A filter can be applied before the sort or after it.
-/

universe u

namespace StableSort

variable {α : Type u}

/-- Put `a` before the first element that is no smaller. -/
def insert (le : α → α → Bool) (a : α) (l : List α) : List α :=
  l.orderedInsert (fun a b => le a b = true) a

def sort (le : α → α → Bool) (l : List α) : List α := l.insertionSort (fun a b => le a b = true)

/-- How many elements the sort puts before `y`, which stands between `before` and `after`. -/
def rank (le : α → α → Bool) (y : α) (before after : List α) : Nat :=
  before.countP (fun a => le a y) + after.countP (fun b => !le y b)

/-- What stands before an element, and what after it, counts in any order. -/
theorem rank_perm {le : α → α → Bool} {y : α} {before before' after after' : List α}
    (hbefore : before.Perm before') (hafter : after.Perm after') :
    rank le y before after = rank le y before' after' := by
  rw [rank, rank, hbefore.countP_eq, hafter.countP_eq]

/-- **Elements of another size** than `y` may stand on either side of it. -/
theorem rank_move {le : α → α → Bool} {y : α} {moved : List α}
    (h : ∀ a ∈ moved, le a y = !le y a) (before after : List α) :
    rank le y (before ++ moved) after = rank le y before (moved ++ after) := by
  have hcount : moved.countP (fun a => le a y) = moved.countP (fun a => !le y a) :=
    List.countP_congr (fun a ha => by rw [h a ha])
  calc rank le y (before ++ moved) after
      = before.countP (fun a => le a y) + moved.countP (fun a => !le y a)
          + after.countP (fun a => !le y a) := by rw [rank, List.countP_append, hcount]
    _ = rank le y before (moved ++ after) := by rw [rank, List.countP_append, Nat.add_assoc]

theorem insert_nil (le : α → α → Bool) (a : α) : insert le a [] = [a] := rfl

theorem insert_of_le {le : α → α → Bool} {a b : α} (h : le a b = true) (l : List α) :
    insert le a (b :: l) = a :: b :: l := List.orderedInsert_cons_of_le (fun a b => le a b = true) l h

theorem insert_of_not_le {le : α → α → Bool} {a b : α} (h : ¬ le a b = true) (l : List α) :
    insert le a (b :: l) = b :: insert le a l :=
  List.orderedInsert_of_not_le (fun a b => le a b = true) l h

theorem sort_cons (le : α → α → Bool) (a : α) (l : List α) :
    sort le (a :: l) = insert le a (sort le l) := rfl

theorem sort_perm (le : α → α → Bool) (l : List α) : (sort le l).Perm l := List.perm_insertionSort _ _

/-- Where nothing is smaller than anything else, the order stays. -/
theorem sort_all (l : List α) : sort (fun _ _ => true) l = l := by
  induction l with
  | nil => rfl
  | cons a l ih =>
      rw [sort_cons, ih]
      cases l with
      | nil => rfl
      | cons b l => exact insert_of_le rfl l

section

/-! ## Insertions -/

variable {le : α → α → Bool} (htrans : ∀ a b c, le a b = true → le b c = true → le a c = true)

include htrans in
/-- An element that is inserted stands behind the smaller ones. -/
theorem getElem?_insert_self (y : α) {l : List α} (hl : l.Pairwise (fun a b => le a b = true)) :
    (insert le y l)[l.countP (fun b => !le y b)]? = some y := by
  induction l with
  | nil => rfl
  | cons b l ih =>
      obtain ⟨hb, hl⟩ := List.pairwise_cons.mp hl
      by_cases hyb : le y b = true
      · -- what follows is no smaller than the first element
        have hnone : (b :: l).countP (fun b => !le y b) = 0 := by
          rw [List.countP_eq_zero]
          intro x hx
          have hyx : le y x = true := by
            rcases List.mem_cons.mp hx with rfl | hx
            · exact hyb
            · exact htrans _ _ _ hyb (hb x hx)
          rw [hyx]
          exact Bool.false_ne_true
        rw [insert_of_le hyb, hnone]
        rfl
      · have hsmaller : (!le y b) = true := by rw [Bool.not_eq_true', ← Bool.not_eq_true]; exact hyb
        rw [insert_of_not_le hyb, List.countP_cons, if_pos hsmaller, List.getElem?_cons_succ]
        exact ih hl

include htrans in
/-- An element that is inserted moves those by one place that it is not larger than. -/
theorem getElem?_insert (a : α) {y : α} {l : List α}
    (hl : l.Pairwise (fun a b => le a b = true)) {n : Nat} (hn : l[n]? = some y) :
    (insert le a l)[n + if le a y = true then 1 else 0]?
      = some y := by
  induction l generalizing n with
  | nil => cases hn
  | cons b l ih =>
      obtain ⟨hb, hl⟩ := List.pairwise_cons.mp hl
      by_cases hab : le a b = true
      · have hay : le a y = true := by
          rcases List.mem_cons.mp (List.mem_of_getElem? hn) with rfl | hy
          · exact hab
          · exact htrans _ _ _ hab (hb y hy)
        rw [insert_of_le hab, if_pos hay, List.getElem?_cons_succ]
        exact hn
      · rw [insert_of_not_le hab]
        cases n with
        | zero =>
            obtain rfl := Option.some.inj hn
            rw [if_neg hab]
            rfl
        | succ n =>
            rw [Nat.add_right_comm, List.getElem?_cons_succ]
            exact ih hl hn

theorem filter_insert_of_neg {p : α → Bool} {a : α} (ha : p a = false) (l : List α) :
    (insert le a l).filter p = l.filter p := by
  induction l with
  | nil => rw [insert_nil, List.filter_cons, ha, if_neg Bool.false_ne_true]
  | cons b l ih =>
      by_cases hab : le a b = true
      · rw [insert_of_le hab, List.filter_cons, ha, if_neg Bool.false_ne_true]
      · rw [insert_of_not_le hab, List.filter_cons, ih, List.filter_cons]

include htrans in
theorem filter_insert_of_pos {p : α → Bool} {a : α} (ha : p a = true) {l : List α}
    (hl : l.Pairwise (fun a b => le a b = true)) :
    (insert le a l).filter p
      = insert le a (l.filter p) := by
  induction l with
  | nil => rw [insert_nil, List.filter_cons, ha, if_pos rfl, List.filter_nil, insert_nil]
  | cons b l ih =>
      obtain ⟨hb, htail⟩ := List.pairwise_cons.mp hl
      by_cases hab : le a b = true
      · -- the first element that is left is no smaller than `b`
        rw [insert_of_le hab, List.filter_cons, ha, if_pos rfl]
        cases hfilter : (b :: l).filter p with
        | nil => rfl
        | cons x rest =>
            have hx : x ∈ b :: l := List.mem_of_mem_filter (hfilter ▸ List.mem_cons_self)
            have hax : le a x = true := by
              rcases List.mem_cons.mp hx with rfl | hx
              · exact hab
              · exact htrans _ _ _ hab (hb x hx)
            rw [insert_of_le hax]
      · rw [insert_of_not_le hab, List.filter_cons, ih htail, List.filter_cons]
        split_ifs
        · rw [insert_of_not_le hab]
        · rfl

/-! ## Sorts -/

variable (htotal : ∀ a b, le a b = true ∨ le b a = true)

include htotal htrans

theorem sort_pairwise (l : List α) : (sort le l).Pairwise (fun a b => le a b = true) := by
  have : Std.Total (fun a b : α => le a b = true) := ⟨htotal⟩
  have : IsTrans α (fun a b => le a b = true) := ⟨htrans⟩
  exact List.pairwise_insertionSort _ _

/-- **The place of an element** in the sorted list is its rank. -/
theorem getElem?_sort (y : α) (before after : List α) :
    (sort le (before ++ y :: after))[rank le y before after]? = some y := by
  induction before with
  | nil =>
      rw [rank, List.countP_nil, Nat.zero_add, List.nil_append, sort_cons]
      rw [← (sort_perm le after).countP_eq]
      exact getElem?_insert_self htrans y (sort_pairwise htrans htotal after)
  | cons a before ih =>
      have hstep := getElem?_insert htrans a
        (sort_pairwise htrans htotal (before ++ y :: after)) ih
      have hrank : rank le y (a :: before) after
          = rank le y before after + if le a y = true then 1 else 0 := by
        rw [rank, List.countP_cons, rank]
        omega
      rw [List.cons_append, sort_cons, hrank]
      exact hstep

/-- **A filter of a sorted list** is the sorted filter. -/
theorem filter_sort (p : α → Bool) (l : List α) : (sort le l).filter p = sort le (l.filter p) := by
  induction l with
  | nil => rfl
  | cons a l ih =>
      rw [sort_cons, List.filter_cons]
      cases ha : p a with
      | false => rw [filter_insert_of_neg ha, ih, if_neg Bool.false_ne_true]
      | true =>
          rw [filter_insert_of_pos htrans ha (sort_pairwise htrans htotal l), ih, if_pos rfl,
            sort_cons]

end

end StableSort
