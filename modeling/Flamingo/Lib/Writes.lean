import Mathlib.Tactic

set_option autoImplicit false

/-! # A record that is written field by field

A list of writes to different fields of a record, of which a reader sees the first few. What it sees
is the old record exactly if these change nothing, and the new record exactly if the others change
nothing.
-/

universe u v

namespace Writes

variable {K : Type u} {V : Type v}

/-- The fields that the first writes and the others write are different ones. -/
theorem notMem_drop {ws : List (K × V)} (hnodup : (ws.map Prod.fst).Nodup) (n : Nat) {w : K × V}
    (hw : w ∈ ws.take n) : w.1 ∉ (ws.drop n).map Prod.fst := by
  rw [← List.take_append_drop n ws, List.map_append, List.nodup_append] at hnodup
  intro hmem
  exact hnodup.2.2 _ (List.mem_map_of_mem hw) _ hmem rfl

theorem notMem_take {ws : List (K × V)} (hnodup : (ws.map Prod.fst).Nodup) (n : Nat) {w : K × V}
    (hw : w ∈ ws.drop n) : w.1 ∉ (ws.take n).map Prod.fst := by
  intro hmem
  obtain ⟨w', hw', heq⟩ := List.mem_map.mp hmem
  apply notMem_drop hnodup n hw'
  rw [heq]
  exact List.mem_map_of_mem hw

theorem nodup_take {ws : List (K × V)} (hnodup : (ws.map Prod.fst).Nodup) (n : Nat) :
    ((ws.take n).map Prod.fst).Nodup := hnodup.sublist ((List.take_sublist n ws).map _)

variable [DecidableEq K]

def apply (ws : List (K × V)) (f : K → V) : K → V :=
  ws.foldl (fun f w => Function.update f w.1 w.2) f

/-- A field that is not written keeps its value. -/
theorem apply_of_notMem {ws : List (K × V)} {k : K} (h : k ∉ ws.map Prod.fst) (f : K → V) :
    apply ws f k = f k := by
  induction ws generalizing f with
  | nil => rfl
  | cons w ws ih =>
      rw [List.map_cons, List.mem_cons, not_or] at h
      show apply ws (Function.update f w.1 w.2) k = f k
      rw [ih h.2, Function.update_of_ne h.1]

/-- A field that is written once has the value that was written. -/
theorem apply_of_mem {ws : List (K × V)} (hnodup : (ws.map Prod.fst).Nodup) {w : K × V}
    (hw : w ∈ ws) (f : K → V) : apply ws f w.1 = w.2 := by
  induction ws generalizing f with
  | nil => cases hw
  | cons w' ws ih =>
      rw [List.map_cons, List.nodup_cons] at hnodup
      show apply ws (Function.update f w'.1 w'.2) w.1 = w.2
      rcases List.mem_cons.mp hw with rfl | hw
      · rw [apply_of_notMem hnodup.1, Function.update_self]
      · exact ih hnodup.2 hw _

/-- **The old record** is seen exactly if the writes so far change nothing. -/
theorem apply_take_eq_old_iff {ws : List (K × V)} (hnodup : (ws.map Prod.fst).Nodup) (n : Nat)
    (f : K → V) :
    (∀ k ∈ ws.map Prod.fst, apply (ws.take n) f k = f k) ↔ ∀ w ∈ ws.take n, f w.1 = w.2 := by
  constructor
  · intro h w hw
    rw [← h w.1 (List.mem_map_of_mem (List.mem_of_mem_take hw)),
      apply_of_mem (nodup_take hnodup n) hw]
  · intro h k _
    -- a field that has been written, and one that has not
    by_cases hk : k ∈ (ws.take n).map Prod.fst
    · obtain ⟨w, hw, rfl⟩ := List.mem_map.mp hk
      rw [apply_of_mem (nodup_take hnodup n) hw, h w hw]
    · exact apply_of_notMem hk f

/-- **The new record** is seen exactly if the writes to come change nothing. -/
theorem apply_take_eq_new_iff {ws : List (K × V)} (hnodup : (ws.map Prod.fst).Nodup) (n : Nat)
    (f : K → V) :
    (∀ k ∈ ws.map Prod.fst, apply (ws.take n) f k = apply ws f k) ↔
      ∀ w ∈ ws.drop n, f w.1 = w.2 := by
  constructor
  · intro h w hw
    have hmem := List.mem_of_mem_drop hw
    have hk := h w.1 (List.mem_map_of_mem hmem)
    rwa [apply_of_notMem (notMem_take hnodup n hw), apply_of_mem hnodup hmem] at hk
  · intro h k hk
    obtain ⟨w, hw, rfl⟩ := List.mem_map.mp hk
    rw [apply_of_mem hnodup hw]
    rw [← List.take_append_drop n ws, List.mem_append] at hw
    rcases hw with hw | hw
    · exact apply_of_mem (nodup_take hnodup n) hw f
    · rw [apply_of_notMem (notMem_take hnodup n hw), h w hw]

end Writes
