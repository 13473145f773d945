import Flamingo.Lib.StableSort
import Flamingo.Foundation.Text
import Flamingo.DBManager.ModelDataBase
import Flamingo.DBManager.StorageManager

set_option autoImplicit false

/-! # Realm results

`realm.objects`, `filter` and `sorted(byKeyPath:)`. Results are live: they are a function of the
objects of their class, evaluated when they are looked at. The order of strings is Realm's own, and
so is the reading of a predicate format; both are parameters.
-/

namespace Flamingo

/-- The objects of a query in their order. -/
abbrev Results (α : Type) := List (Nat × α)

structure Realm where
  /-- the order of strings -/
  le : String → String → Bool
  le_total : ∀ a b, le a b = true ∨ le b a = true
  le_trans : ∀ a b c, le a b = true → le b c = true → le a c = true
  /-- `NSPredicate(format:)` on services; a format that cannot be read raises an exception -/
  servicePredicate : String → Option (Service → Bool)

namespace Results

variable {α : Type}

/-- `filter` -/
def filter (results : Results α) (p : α → Bool) : Results α := List.filter (fun o => p o.2) results

theorem filter_append (results results' : Results α) (p : α → Bool) :
    Results.filter (results ++ results') p = Results.filter results p ++ Results.filter results' p :=
  List.filter_append ..

def order (realm : Realm) (key : α → String) (a b : Nat × α) : Bool := realm.le (key a.2) (key b.2)

theorem order_total (realm : Realm) (key : α → String) (a b : Nat × α) :
    order realm key a b = true ∨ order realm key b a = true := realm.le_total _ _

theorem order_trans (realm : Realm) (key : α → String) (a b c : Nat × α)
    (hab : order realm key a b = true) (hbc : order realm key b c = true) :
    order realm key a c = true := realm.le_trans _ _ _ hab hbc

/-- `sorted(byKeyPath:)`; objects with equal keys stay in their order. -/
def sorted (realm : Realm) (key : α → String) (results : Results α) : Results α :=
  StableSort.sort (order realm key) results

theorem sorted_perm (realm : Realm) (key : α → String) (results : Results α) :
    (results.sorted realm key).Perm results := StableSort.sort_perm _ _

theorem sorted_pairwise (realm : Realm) (key : α → String) (results : Results α) :
    (results.sorted realm key).Pairwise (fun a b => realm.le (key a.2) (key b.2) = true) :=
  StableSort.sort_pairwise (order_trans realm key) (order_total realm key) results

theorem filter_sorted (realm : Realm) (key : α → String) (p : α → Bool) (results : Results α) :
    (results.sorted realm key).filter p = (results.filter p).sorted realm key :=
  StableSort.filter_sort (order_trans realm key) (order_total realm key) _ results

/-- Sorting what was filtered from sorted results changes nothing. -/
theorem sorted_filter_sorted (realm : Realm) (key : α → String) (p : α → Bool)
    (results : Results α) :
    ((results.sorted realm key).filter p).sorted realm key
      = (results.sorted realm key).filter p :=
  List.Pairwise.insertionSort_eq ((sorted_pairwise realm key results).filter _)

end Results

/-- A comparison of the category with a quoted text that has no quotation mark and no escape. -/
def categoryPredicate (format : String) : Option (Service → Bool) :=
  let head := "nameCategoryService = '".toList
  let category := (format.toList.drop head.length).dropLast
  if format.toList = head ++ category ++ ['\'']
      ∧ category.all (fun c => c != '\'' && c != '\\') = true then
    some (fun service => service.nameCategoryService == String.ofList category)
  else none

/-- Realm with the order of the characters, reading comparisons of the category only. -/
def plainRealm : Realm where
  le a b := decide (a ≤ b)
  le_total a b := by
    simp only [decide_eq_true_eq]
    exact String.le_total a b
  le_trans a b c := by
    simp only [decide_eq_true_eq]
    exact String.le_trans
  servicePredicate := categoryPredicate

end Flamingo
