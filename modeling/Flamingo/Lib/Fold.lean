import Mathlib.Tactic

set_option autoImplicit false

/-! # Loops that push, and loops that may fail

A loop that pushes something of each element onto an array of the state, and changes nothing else,
is a `map`.

A loop whose body either fails or changes the state: `foldlM` in `Option`. When it is the element
alone that makes the body fail, the loop fails exactly if one of the elements does, and otherwise it
is a plain fold. A body that fails less often does the same wherever the first one did not fail.
-/

universe u v w

namespace PushFold

variable {σ : Type u} {α : Type v} {β : Type w}

/-- `put acc` is the state in which the array holds `acc`. -/
theorem foldl_push (put : List β → σ) (f : α → β) {body : σ → α → σ}
    (h : ∀ acc x, body (put acc) x = put (acc ++ [f x])) (l : List α) (acc : List β) :
    l.foldl body (put acc) = put (acc ++ l.map f) := by
  induction l generalizing acc with
  | nil => rw [List.map_nil, List.append_nil, List.foldl_nil]
  | cons x l ih =>
      rw [List.foldl_cons, h, ih, List.map_cons, List.append_assoc, List.singleton_append]

end PushFold

namespace OptionFold

variable {σ : Type u} {α : Type v}

theorem foldlM_guard {f : σ → α → Option σ} {ok : α → Bool} {g : σ → α → σ}
    (h : ∀ s x, f s x = if ok x then some (g s x) else none) (l : List α) (s : σ) :
    l.foldlM f s = if l.all ok then some (l.foldl g s) else none := by
  induction l generalizing s with
  | nil => rfl
  | cons x l ih =>
      rw [List.foldlM_cons, h, List.all_cons]
      by_cases hx : ok x = true
      · rw [if_pos hx, hx, Bool.true_and]
        exact ih (g s x)
      · rw [if_neg hx, Bool.not_eq_true] at *
        rw [hx, Bool.false_and]
        rfl

/-- A body that does what another one does, whenever that one does not fail. -/
theorem foldlM_mono {f g : σ → α → Option σ}
    (h : ∀ s x s', f s x = some s' → g s x = some s') :
    ∀ (l : List α) {s s' : σ}, l.foldlM f s = some s' → l.foldlM g s = some s' := by
  intro l
  induction l with
  | nil =>
      intro s s' hs
      exact hs
  | cons x l ih =>
      intro s s' hs
      rw [List.foldlM_cons, Option.bind_eq_bind] at hs ⊢
      obtain ⟨t, hone, hrest⟩ := Option.bind_eq_some_iff.mp hs
      rw [h s x t hone, Option.bind_some]
      exact ih hrest

/-- A state that the body leaves as it is, for every element. -/
theorem foldlM_fixed {f : σ → α → Option σ} {l : List α} {s : σ}
    (h : ∀ x ∈ l, f s x = some s) : l.foldlM f s = some s := by
  induction l with
  | nil => rfl
  | cons x l ih =>
      rw [List.foldlM_cons, h x List.mem_cons_self]
      exact ih (fun y hy => h y (List.mem_cons_of_mem _ hy))

/-- **The loop rule.** `I before s` is what holds in the state `s` when the elements `before` have
been worked off. -/
theorem foldlM_invariant {f : σ → α → Option σ} (I : List α → σ → Prop) {l : List α} {s s' : σ}
    (hinit : I [] s)
    (hstep : ∀ before x after t t', l = before ++ x :: after → I before t → f t x = some t' →
      I (before ++ [x]) t')
    (h : l.foldlM f s = some s') : I l s' := by
  have hall : ∀ (before after : List α) (t : σ), l = before ++ after → I before t →
      after.foldlM f t = some s' → I l s' := by
    intro before after
    -- induction on the elements to come, for any elements worked off so far
    induction after generalizing before with
    | nil =>
        intro t hl hi ht
        obtain rfl := Option.some.inj ht
        rw [hl, List.append_nil]
        exact hi
    | cons x after ih =>
        intro t hl hi ht
        rw [List.foldlM_cons, Option.bind_eq_bind] at ht
        obtain ⟨t', hone, hrest⟩ := Option.bind_eq_some_iff.mp ht
        refine ih (before ++ [x]) t' ?_ (hstep before x after t t' hl hi hone) hrest
        rw [hl, List.append_assoc, List.singleton_append]
  exact hall [] l s rfl hinit h

/-- A loop succeeds if, along the way, no element makes its body fail. -/
theorem foldlM_isSome_iff {f : σ → α → Option σ} (I : List α → σ → Prop) {l : List α} {s : σ}
    (ok : List α → α → Prop) (hinit : I [] s)
    (hstep : ∀ before x after t t', l = before ++ x :: after → I before t → f t x = some t' →
      I (before ++ [x]) t')
    (hok : ∀ before x after t, l = before ++ x :: after → I before t →
      ((f t x).isSome ↔ ok before x)) :
    (l.foldlM f s).isSome ↔ ∀ before x after, l = before ++ x :: after → ok before x := by
  have hall : ∀ (before after : List α) (t : σ), l = before ++ after → I before t →
      ((after.foldlM f t).isSome ↔
        ∀ mid x rest, after = mid ++ x :: rest → ok (before ++ mid) x) := by
    intro before after
    induction after generalizing before with
    | nil =>
        intro t _ _
        refine iff_of_true rfl ?_
        intro mid x rest hnil
        simp at hnil
    | cons x after ih =>
        intro t hl hi
        have hhere := hok before x after t hl hi
        rw [List.foldlM_cons, Option.bind_eq_bind]
        cases hone : f t x with
        | none =>
            -- the body fails at this element
            rw [hone] at hhere
            refine iff_of_false (by simp) ?_
            intro hoks
            have hx := hhere.mpr (by simpa using hoks [] x after rfl)
            cases hx
        | some t' =>
            rw [hone] at hhere
            have hrest := ih (before ++ [x]) t'
              (by rw [hl, List.append_assoc, List.singleton_append])
              (hstep before x after t t' hl hi hone)
            rw [Option.bind_some, hrest]
            constructor
            · intro hoks mid y rest hsplit
              cases mid with
              | nil =>
                  obtain ⟨rfl, -⟩ := List.cons.inj hsplit
                  rw [List.append_nil]
                  exact hhere.mp rfl
              | cons z mid =>
                  rw [List.cons_append] at hsplit
                  obtain ⟨rfl, htail⟩ := List.cons.inj hsplit
                  have := hoks mid y rest htail
                  rwa [List.append_assoc, List.singleton_append] at this
            · intro hoks mid y rest hsplit
              have := hoks (x :: mid) y rest (by rw [hsplit, List.cons_append])
              rwa [List.append_assoc, List.singleton_append]
  have := hall [] l s rfl hinit
  simpa using this

end OptionFold
