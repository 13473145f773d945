import Mathlib.Tactic

set_option autoImplicit false

/-! # Masks

A mask is a list with holes and literals between them. Filling it walks the mask and the items at
once: a hole takes the next item, a literal stands for itself, and the walk ends as soon as the items
run out, so that no literal is written ahead of an item. If the mask ends in a hole and its literals
are no items, then the filled mask says exactly which items went into it.
-/

universe u

namespace Mask

variable {α : Type u} {hole : α}

/-- The last entry of the mask, if there is one, is a hole. -/
def EndsInHole (hole : α) (mask : List α) : Prop := ∀ m ∈ mask.getLast?, m = hole

theorem EndsInHole.of_cons {m : α} {mask : List α} (h : EndsInHole hole (m :: mask)) :
    EndsInHole hole mask := by
  intro x hx
  cases mask with
  | nil => cases hx
  | cons m' mask => exact h x (by rwa [List.getLast?_cons_cons])

/-- A literal of such a mask is not its last entry. -/
theorem EndsInHole.ne_nil {m : α} {mask : List α} (h : EndsInHole hole (m :: mask))
    (hm : m ≠ hole) : mask ≠ [] := by
  rintro rfl
  exact hm (h m rfl)

variable [DecidableEq α]

theorem EndsInHole.count_ne_zero {mask : List α} (h : EndsInHole hole mask) (hmask : mask ≠ []) :
    mask.count hole ≠ 0 := by
  have hlast : mask.getLast hmask = hole := h _ (List.getLast?_eq_some_getLast hmask)
  intro hcount
  exact List.count_eq_zero.mp hcount (hlast ▸ List.getLast_mem hmask)

/-- The mask filled with as many of the items as it has holes for. -/
def fill (hole : α) : List α → List α → List α
  | [], _ => []
  | _ :: _, [] => []
  | m :: mask, d :: ds =>
      if m = hole then d :: fill hole mask ds else m :: fill hole mask (d :: ds)

@[simp] theorem fill_nil_left (ds : List α) : fill hole [] ds = [] := rfl

@[simp] theorem fill_nil_right (mask : List α) : fill hole mask [] = [] := by
  cases mask <;> rfl

theorem fill_hole (mask ds : List α) (d : α) :
    fill hole (hole :: mask) (d :: ds) = d :: fill hole mask ds := if_pos rfl

theorem fill_literal {m : α} (hm : m ≠ hole) (mask ds : List α) (d : α) :
    fill hole (m :: mask) (d :: ds) = m :: fill hole mask (d :: ds) := if_neg hm

/-- There is an item for the first entry of what is left of the mask. -/
theorem fill_ne_nil {mask : List α} (hmask : mask ≠ []) (d : α) (ds : List α) :
    fill hole mask (d :: ds) ≠ [] := by
  cases mask with
  | nil => exact absurd rfl hmask
  | cons m mask =>
      by_cases hm : m = hole
      · subst hm
        rw [fill_hole]
        exact List.cons_ne_nil _ _
      · rw [fill_literal hm]
        exact List.cons_ne_nil _ _

/-! ## What a filled mask holds -/

/-- **The items are kept**: the items in the filled mask are those that it has holes for. -/
theorem filter_fill (p : α → Bool) {mask : List α} (hlit : ∀ m ∈ mask, m ≠ hole → p m = false) :
    ∀ {ds : List α}, (∀ d ∈ ds, p d) → (fill hole mask ds).filter p = ds.take (mask.count hole) := by
  induction mask with
  | nil => intro ds _; rfl
  | cons m mask ih =>
      have hrest : ∀ x ∈ mask, x ≠ hole → p x = false :=
        fun x hx => hlit x (List.mem_cons_of_mem _ hx)
      intro ds hds
      cases ds with
      | nil => rw [fill_nil_right, List.take_nil, List.filter_nil]
      | cons d ds =>
          by_cases hm : m = hole
          · subst hm
            rw [fill_hole, List.filter_cons_of_pos (hds d List.mem_cons_self),
              ih hrest (fun x hx => hds x (List.mem_cons_of_mem _ hx)), List.count_cons_self,
              List.take_succ_cons]
          · have hp : ¬ p m = true := by
              rw [hlit m List.mem_cons_self hm]
              exact Bool.false_ne_true
            rw [fill_literal hm, List.filter_cons_of_neg hp, ih hrest hds, List.count_cons_of_ne hm]

/-- **The items beyond the last hole** leave no trace. -/
theorem fill_take {mask : List α} (hend : EndsInHole hole mask) :
    ∀ ds : List α, fill hole mask (ds.take (mask.count hole)) = fill hole mask ds := by
  induction mask with
  | nil => intro ds; rfl
  | cons m mask ih =>
      intro ds
      cases ds with
      | nil => rw [List.take_nil]
      | cons d ds =>
          by_cases hm : m = hole
          · subst hm
            rw [List.count_cons_self, List.take_succ_cons, fill_hole, fill_hole, ih hend.of_cons]
          · -- there is a hole after the literal, so an item is left for both of them
            have hcount := hend.of_cons.count_ne_zero (hend.ne_nil hm)
            obtain ⟨n, hn⟩ := Nat.exists_eq_succ_of_ne_zero hcount
            have hih := ih hend.of_cons (d :: ds)
            rw [hn, List.take_succ_cons] at hih
            rw [List.count_cons_of_ne hm, hn, List.take_succ_cons, fill_literal hm, fill_literal hm,
              hih]

/-- **The last entry** of a filled mask is an item. -/
theorem getLast?_fill {mask : List α} (hend : EndsInHole hole mask) :
    ∀ {ds : List α} {x : α}, (fill hole mask ds).getLast? = some x → x ∈ ds := by
  induction mask with
  | nil => intro ds x h; cases h
  | cons m mask ih =>
      intro ds x h
      cases ds with
      | nil => cases h
      | cons d ds =>
          by_cases hm : m = hole
          · subst hm
            rw [fill_hole, List.getLast?_cons, Option.some.injEq] at h
            cases hlast : (fill m mask ds).getLast? with
            | none =>
                rw [hlast] at h
                exact h ▸ List.mem_cons_self
            | some y =>
                rw [hlast] at h
                exact List.mem_cons_of_mem _ (h ▸ ih hend.of_cons hlast)
          · rw [fill_literal hm] at h
            have hne : fill hole mask (d :: ds) ≠ [] := fill_ne_nil (hend.ne_nil hm) d ds
            obtain ⟨y, ys, hys⟩ := List.exists_cons_of_ne_nil hne
            rw [hys, List.getLast?_cons_cons, ← hys] at h
            exact ih hend.of_cons h

/-- **The length** is that of the mask exactly if there is an item for every hole. -/
theorem length_fill_eq_iff {mask : List α} (hend : EndsInHole hole mask) :
    ∀ ds : List α, (fill hole mask ds).length = mask.length ↔ mask.count hole ≤ ds.length := by
  induction mask with
  | nil => intro ds; simp
  | cons m mask ih =>
      intro ds
      cases ds with
      | nil =>
          have hcount := hend.count_ne_zero (List.cons_ne_nil m mask)
          rw [fill_nil_right]
          simp only [List.length_nil, List.length_cons]
          omega
      | cons d ds =>
          by_cases hm : m = hole
          · subst hm
            rw [fill_hole, List.count_cons_self]
            simp only [List.length_cons, Nat.add_right_cancel_iff, Nat.add_le_add_iff_right]
            exact ih hend.of_cons ds
          · rw [fill_literal hm, List.count_cons_of_ne hm]
            simp only [List.length_cons, Nat.add_right_cancel_iff]
            exact ih hend.of_cons (d :: ds)

/-! ## Filled masks as keys -/

variable {p : α → Bool} {mask : List α}

/-- **Filling again** with the items of a filled mask changes nothing. -/
theorem fill_filter_fill (hlit : ∀ m ∈ mask, m ≠ hole → p m = false) (hend : EndsInHole hole mask)
    {ds : List α} (hds : ∀ d ∈ ds, p d) :
    fill hole mask ((fill hole mask ds).filter p) = fill hole mask ds := by
  rw [filter_fill p hlit hds, fill_take hend]

/-- **Two filled masks are equal** exactly if the items in their holes are. -/
theorem fill_eq_fill_iff (hlit : ∀ m ∈ mask, m ≠ hole → p m = false) (hend : EndsInHole hole mask)
    {ds es : List α} (hds : ∀ d ∈ ds, p d) (hes : ∀ d ∈ es, p d) :
    fill hole mask ds = fill hole mask es ↔
      ds.take (mask.count hole) = es.take (mask.count hole) := by
  constructor
  · intro h
    rw [← filter_fill p hlit hds, h, filter_fill p hlit hes]
  · intro h
    rw [← fill_take hend ds, h, fill_take hend es]

end Mask
