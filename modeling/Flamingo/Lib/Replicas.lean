import Flamingo.Lib.Machine

set_option autoImplicit false

/-! # Replicas of a changing source

A source holds values, and replicas hold values that they have taken from it. What is sent to a
replica is what the source holds at that moment; on its way it may be delayed, lost, delivered more
than once or taken long after the source has changed. A replica takes what has come to it and gives
up what it held, as it likes.

The machine is the loosest one with these rules: whatever the replicas do, what they hold was once
held by the source (`known_of_reachable`).
-/

universe u v

structure Replicas (ι : Type u) (V : Type v) where
  source : Set V
  /-- what the source has held so far -/
  past : Set V
  /-- what has been sent to a replica and may still be taken -/
  coming : ι → Set V
  held : ι → Set V

namespace Replicas

variable {ι : Type u} [DecidableEq ι] {V : Type v}

inductive Event (ι : Type u) (V : Type v)
  /-- the source holds other values -/
  | change (source : Set V)
  | send (i : ι)
  /-- a replica holds other values, and other values are on their way to it -/
  | take (i : ι) (held coming : Set V)

open Classical in
noncomputable def step (s : Replicas ι V) : Event ι V → Option (Replicas ι V)
  | .change source => some { s with source, past := s.past ∪ source }
  | .send i => some { s with coming := Function.update s.coming i (s.coming i ∪ s.source) }
  | .take i held coming =>
      if held ⊆ s.held i ∪ s.coming i ∧ coming ⊆ s.coming i then
        some { s with
          coming := Function.update s.coming i coming
          held := Function.update s.held i held }
      else none

/-- The replicas start empty. -/
noncomputable def machine (ι : Type u) [DecidableEq ι] (V : Type v) : EventMachine (Replicas ι V) (Event ι V) where
  init s := s.past = s.source ∧ (∀ i, s.coming i = ∅) ∧ ∀ i, s.held i = ∅
  step := step

variable {s s' : Replicas ι V}

theorem step_take {i : ι} {held coming : Set V} (hheld : held ⊆ s.held i ∪ s.coming i)
    (hcoming : coming ⊆ s.coming i) :
    s.step (.take i held coming) = some { s with
      coming := Function.update s.coming i coming
      held := Function.update s.held i held } := if_pos ⟨hheld, hcoming⟩

/-! ## What is held was once held by the source -/

structure Known (s : Replicas ι V) : Prop where
  source : s.source ⊆ s.past
  coming : ∀ i, s.coming i ⊆ s.past
  held : ∀ i, s.held i ⊆ s.past

theorem update_subset {f : ι → Set V} {i : ι} {a past : Set V}
    (hf : ∀ j, f j ⊆ past) (ha : a ⊆ past) (j : ι) : Function.update f i a j ⊆ past := by
  by_cases hj : j = i
  · rw [hj, Function.update_self]
    exact ha
  · rw [Function.update_of_ne hj]
    exact hf j

theorem known_step {e : Event ι V} (hi : s.Known) (h : s.step e = some s') : s'.Known := by
  cases e with
  | change source =>
      obtain rfl := Option.some.inj h
      refine ⟨Set.subset_union_right, ?_, ?_⟩
      · exact fun i => (hi.coming i).trans Set.subset_union_left
      · exact fun i => (hi.held i).trans Set.subset_union_left
  | send i =>
      obtain rfl := Option.some.inj h
      refine ⟨hi.source, ?_, hi.held⟩
      exact update_subset hi.coming (Set.union_subset (hi.coming i) hi.source)
  | take i held coming =>
      simp only [step] at h
      split_ifs at h with htake
      obtain rfl := Option.some.inj h
      have hboth : s.held i ∪ s.coming i ⊆ s.past := Set.union_subset (hi.held i) (hi.coming i)
      refine ⟨hi.source, ?_, ?_⟩
      · exact update_subset hi.coming (htake.2.trans (hi.coming i))
      · exact update_subset hi.held (htake.1.trans hboth)

theorem known_of_reachable (h : (machine ι V).Reachable s) : s.Known := by
  refine h.invariant Known ?_ (fun _ _ _ hi _ hs => known_step hi hs)
  rintro s ⟨hpast, hcoming, hheld⟩
  refine ⟨hpast.symm.subset, ?_, ?_⟩
  · intro i
    rw [hcoming i]
    exact Set.empty_subset _
  · intro i
    rw [hheld i]
    exact Set.empty_subset _

end Replicas
