import Mathlib.Tactic

set_option autoImplicit false

/-! # References into an object store

A store maps keys to objects; a reference is a key with the object it is meant for. A set of
references resolves when every key holds its object. The lemmas say which references a write or a
removal breaks: those that share the key.
-/

namespace ObjectStore

universe u v

variable {κ : Type u} {ν : Type v} [DecidableEq κ]

def put (store : κ → Option ν) (k : κ) (x : ν) : κ → Option ν := Function.update store k (some x)

def remove (store : κ → Option ν) (k : κ) : κ → Option ν := Function.update store k none

/-- Every reference finds its object. -/
def Resolves (store : κ → Option ν) (refs : Set (κ × ν)) : Prop :=
  ∀ r ∈ refs, store r.1 = some r.2

/-- No reference with another object has the key. -/
def OwnsOnly (refs : Set (κ × ν)) (k : κ) (x : ν) : Prop := ∀ r ∈ refs, r.1 = k → r.2 = x

/-- No reference has the key. -/
def Unreferenced (refs : Set (κ × ν)) (k : κ) : Prop := ∀ r ∈ refs, r.1 ≠ k

variable {store : κ → Option ν} {refs : Set (κ × ν)} {k q : κ} {x : ν}

omit [DecidableEq κ] in
theorem Resolves.mono {refs' : Set (κ × ν)} (h : Resolves store refs) (hsub : refs' ⊆ refs) :
    Resolves store refs' := fun r hr => h r (hsub hr)

omit [DecidableEq κ] in
theorem resolves_insert {r : κ × ν} :
    Resolves store (insert r refs) ↔ store r.1 = some r.2 ∧ Resolves store refs := by
  simp only [Resolves, Set.mem_insert_iff, forall_eq_or_imp]

@[simp] theorem put_self : put store k x k = some x := Function.update_self _ _ _

theorem put_of_ne {k' : κ} (h : k' ≠ k) : put store k x k' = store k' := Function.update_of_ne h _ _

@[simp] theorem remove_self : remove store k k = none := Function.update_self _ _ _

theorem remove_of_ne {k' : κ} (h : k' ≠ k) : remove store k k' = store k' :=
  Function.update_of_ne h _ _

theorem resolves_put_iff (h : Resolves store refs) :
    Resolves (put store k x) refs ↔ OwnsOnly refs k x := by
  apply forall₂_congr
  intro r hr
  by_cases hk : r.1 = k
  · simp only [hk, put_self, Option.some.injEq, forall_const]
    exact eq_comm
  · simp only [put_of_ne hk, h r hr, hk, false_implies]

theorem resolves_remove_iff (h : Resolves store refs) :
    Resolves (remove store k) refs ↔ Unreferenced refs k := by
  apply forall₂_congr
  intro r hr
  by_cases hk : r.1 = k
  · simp only [hk, remove_self, reduceCtorEq, ne_eq, not_true_eq_false]
  · simp only [remove_of_ne hk, h r hr, ne_eq, hk, not_false_eq_true]

/-- A write followed by a removal. -/
theorem resolves_remove_put_iff (h : Resolves store refs) :
    Resolves (remove (put store k x) q) refs ↔ OwnsOnly refs k x ∧ Unreferenced refs q := by
  constructor
  · intro hafter
    have hq : Unreferenced refs q := by
      intro r hr heq
      have := hafter r hr
      rw [heq, remove_self] at this
      cases this
    refine ⟨?_, hq⟩
    intro r hr hk
    have := hafter r hr
    rw [remove_of_ne (hq r hr), hk, put_self, Option.some.injEq] at this
    exact this.symm
  · rintro ⟨hput, hq⟩ r hr
    rw [remove_of_ne (hq r hr)]
    exact (resolves_put_iff h).mpr hput r hr

/-- A removal followed by a write: what was removed may be written again. -/
theorem resolves_put_remove_iff (h : Resolves store refs) :
    Resolves (put (remove store q) k x) refs ↔
      OwnsOnly refs k x ∧ ∀ r ∈ refs, r.1 = q → q = k := by
  constructor
  · intro hafter
    have hput : OwnsOnly refs k x := by
      intro r hr hk
      have := hafter r hr
      rw [hk, put_self, Option.some.injEq] at this
      exact this.symm
    refine ⟨hput, ?_⟩
    intro r hr heq
    by_contra hne
    have := hafter r hr
    rw [heq, put_of_ne hne, remove_self] at this
    cases this
  · rintro ⟨hput, hq⟩ r hr
    -- the key that is written, or one that was neither written nor removed
    by_cases hk : r.1 = k
    · rw [hk, put_self, hput r hr hk]
    · have hne : r.1 ≠ q := fun heq => hk (heq.trans (hq r hr heq))
      rw [put_of_ne hk, remove_of_ne hne, h r hr]

/-! ## Objects without a reference -/

/-- The keys that hold an object. -/
def keys (store : κ → Option ν) : Set κ := {k | (store k).isSome}

/-- Every object has a reference. -/
def Covers (store : κ → Option ν) (refs : Set (κ × ν)) : Prop :=
  keys store ⊆ Set.image Prod.fst refs

/-- Every key that was referenced is one of `free`, or is referenced by `others`. -/
def Accounted (refs others : Set (κ × ν)) (free : List κ) : Prop :=
  ∀ r ∈ refs, r.1 ∈ free ∨ ∃ r' ∈ others, r'.1 = r.1

omit [DecidableEq κ] in
/-- The references are the objects. -/
theorem resolves_and_covers_iff :
    Resolves store refs ∧ Covers store refs ↔ ∀ k x, store k = some x ↔ (k, x) ∈ refs := by
  constructor
  · rintro ⟨hresolves, hcovers⟩ k x
    constructor
    · intro hx
      obtain ⟨r, hr, rfl⟩ := hcovers (show (store k).isSome by rw [hx]; rfl)
      have hsame := hresolves r hr
      rw [hx] at hsame
      rw [Option.some.inj hsame]
      exact hr
    · exact fun hmem => hresolves (k, x) hmem
  · intro h
    constructor
    · exact fun r hr => (h r.1 r.2).mpr hr
    · intro k hk
      obtain ⟨x, hx⟩ := Option.isSome_iff_exists.mp hk
      exact ⟨(k, x), (h k x).mp hx, rfl⟩

omit [DecidableEq κ] in
theorem keys_of_covers (hr : Resolves store refs) (h : Covers store refs) :
    keys store = Set.image Prod.fst refs := by
  refine Set.Subset.antisymm h ?_
  rintro k ⟨r, hmem, rfl⟩
  show (store r.1).isSome
  rw [hr r hmem]
  rfl

theorem keys_put : keys (put store k x) = insert k (keys store) := by
  ext k'
  by_cases hk : k' = k
  · subst hk
    simp [keys]
  · simp [keys, put_of_ne hk, hk]

theorem keys_remove : keys (remove store q) = keys store \ {q} := by
  ext k'
  by_cases hk : k' = q
  · subst hk
    simp [keys]
  · simp [keys, remove_of_ne hk, hk]

omit [DecidableEq κ] in
/-- Some references are dropped, and the keys in `free` need none. -/
theorem subset_image_iff {others : Set (κ × ν)} {free : List κ} :
    Set.image Prod.fst refs \ {k | k ∈ free} ⊆ Set.image Prod.fst others ↔
      Accounted refs others free := by
  constructor
  · intro h r hr
    by_cases hfree : r.1 ∈ free
    · exact Or.inl hfree
    · exact Or.inr (h ⟨⟨r, hr, rfl⟩, hfree⟩)
  · rintro h k ⟨⟨r, hr, rfl⟩, hfree⟩
    exact (h r hr).resolve_left hfree

theorem covers_put (h : Covers store refs) : Covers (put store k x) (insert (k, x) refs) := by
  rw [Covers, keys_put, Set.image_insert_eq]
  exact Set.insert_subset_insert h

omit [DecidableEq κ] in
theorem covers_iff {others : Set (κ × ν)} (hr : Resolves store refs) (h : Covers store refs) :
    Covers store others ↔ Accounted refs others [] := by
  rw [Covers, keys_of_covers hr h, ← subset_image_iff]
  simp

theorem covers_remove_iff {others : Set (κ × ν)} (hr : Resolves store refs)
    (h : Covers store refs) : Covers (remove store q) others ↔ Accounted refs others [q] := by
  rw [Covers, keys_remove, keys_of_covers hr h, ← subset_image_iff]
  simp only [List.mem_singleton, Set.ofPred_eq_eq_singleton]

/-- What is written has a reference. -/
theorem covers_put_insert_iff {others : Set (κ × ν)} {free : List κ} {store' : κ → Option ν}
    (hkeys : keys store' = Set.image Prod.fst refs \ {k | k ∈ free}) :
    Covers (put store' k x) (insert (k, x) others) ↔ Accounted refs others (k :: free) := by
  rw [Covers, keys_put, Set.image_insert_eq, hkeys]
  constructor
  · intro hsub r hmem
    by_cases hfree : r.1 ∈ k :: free
    · exact Or.inl hfree
    · rw [List.mem_cons, not_or] at hfree
      have hin := hsub (Set.mem_insert_of_mem k ⟨⟨r, hmem, rfl⟩, hfree.2⟩)
      exact Or.inr (hin.resolve_left hfree.1)
  · intro hacc k' hk'
    rcases hk' with rfl | ⟨⟨r, hmem, rfl⟩, hfree⟩
    · exact Set.mem_insert _ _
    · rcases hacc r hmem with hin | hin
      · rcases List.mem_cons.mp hin with heq | hin
        · rw [heq]
          exact Set.mem_insert _ _
        · exact absurd hin hfree
      · exact Set.mem_insert_of_mem _ hin

/-- What is written has a reference, and then a key is removed. -/
theorem covers_remove_put_insert_iff {others : Set (κ × ν)} (hr : Resolves store refs)
    (h : Covers store refs) :
    Covers (remove (put store k x) q) (insert (k, x) others) ↔ Accounted refs others [k, q] := by
  rw [Covers, keys_remove, keys_put, Set.image_insert_eq, keys_of_covers hr h]
  constructor
  · intro hsub r hmem
    by_cases hfree : r.1 ∈ [k, q]
    · exact Or.inl hfree
    · simp only [List.mem_cons, List.not_mem_nil, or_false, not_or] at hfree
      have hin := hsub ⟨Set.mem_insert_of_mem k ⟨r, hmem, rfl⟩, hfree.2⟩
      exact Or.inr (hin.resolve_left hfree.1)
  · rintro hacc k' ⟨rfl | ⟨r, hmem, rfl⟩, hne⟩
    · exact Set.mem_insert _ _
    · rcases hacc r hmem with hin | hin
      · simp only [List.mem_cons, List.not_mem_nil, or_false] at hin
        rcases hin with heq | heq
        · rw [heq]
          exact Set.mem_insert _ _
        · exact absurd heq hne
      · exact Set.mem_insert_of_mem _ hin

/-- What is written has no reference of its own, and then a key is removed. -/
theorem covers_remove_put_iff (hr : Resolves store refs) (h : Covers store refs) :
    Covers (remove (put store k x) q) refs ↔ k = q ∨ ∃ r ∈ refs, r.1 = k := by
  rw [Covers, keys_remove, keys_put, keys_of_covers hr h]
  constructor
  · intro hsub
    by_cases hkq : k = q
    · exact Or.inl hkq
    · exact Or.inr (hsub ⟨Set.mem_insert _ _, hkq⟩)
  · rintro hk k' ⟨rfl | hmem, hne⟩
    · exact hk.resolve_left hne
    · exact hmem

end ObjectStore
