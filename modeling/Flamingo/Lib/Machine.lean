import Mathlib.Tactic

set_option autoImplicit false

/-! # Event machines and guarded runs

An `EventMachine` is a set of initial states and a partial step function on events: an event
that the step function refuses (`none`) cannot happen in that state. Everything that is not
determined by the state (which message arrives next, what a user does, what a server answers)
is part of the event, so that a property of every interleaving is a property of every list of
events.

`Reach M C s` says that `s` ends a run of `M` all of whose steps meet the condition `C` on the
state before the step and the event. Plain reachability is the case of the trivial condition.
`Always M P s es` says that `P` holds in every state of the run `es` from `s`, and `Each M C s es`
that every step of it meets `C`.
-/

universe u v w x

/-- A machine: its initial states and what an event does to a state, if it can happen. -/
structure EventMachine (σ : Type u) (ε : Type v) where
  init : σ → Prop
  step : σ → ε → Option σ

namespace EventMachine

variable {σ : Type u} {ε : Type v} {α : Type w} {β : Type x}

/-! ## Runs -/

/-- The states that end a run of `M` each of whose steps meets `C`. -/
inductive Reach (M : EventMachine σ ε) (C : σ → ε → Prop) : σ → Prop
  | init {s : σ} : M.init s → Reach M C s
  | step {s s' : σ} {e : ε} : Reach M C s → C s e → M.step s e = some s' → Reach M C s'

/-- The states that end a run of `M`. -/
def Reachable (M : EventMachine σ ε) : σ → Prop := Reach M (fun _ _ => True)

/-- `M` from one of its states on. -/
def after (M : EventMachine σ ε) (s : σ) : EventMachine σ ε := { M with init := (· = s) }

/-- Run a list of events; `none` if one of them cannot happen. -/
def exec (M : EventMachine σ ε) : σ → List ε → Option σ
  | s, [] => some s
  | s, e :: es => (M.step s e).bind (fun s' => M.exec s' es)

/-- Run a list of events, checking the condition before each step. -/
def execWhere (M : EventMachine σ ε) (C : σ → ε → Prop) [∀ s e, Decidable (C s e)] :
    σ → List ε → Option σ
  | s, [] => some s
  | s, e :: es => if C s e then (M.step s e).bind (fun s' => M.execWhere C s' es) else none

/-- The property holds in every state of a run. -/
def Always (M : EventMachine σ ε) (P : σ → Prop) : σ → List ε → Prop
  | s, [] => P s
  | s, e :: es => P s ∧ ∀ s' ∈ M.step s e, M.Always P s' es

/-- Every step of a run meets the condition. -/
def Each (M : EventMachine σ ε) (C : σ → ε → Prop) : σ → List ε → Prop
  | _, [] => True
  | s, e :: es => C s e ∧ ∀ s' ∈ M.step s e, M.Each C s' es

variable {M : EventMachine σ ε} {C D : σ → ε → Prop}

theorem Reach.mono (hCD : ∀ s e, C s e → D s e) {s : σ} (h : Reach M C s) : Reach M D s := by
  induction h with
  | init h0 => exact .init h0
  | step _ hc hs ih => exact .step ih (hCD _ _ hc) hs

theorem Reach.reachable {s : σ} (h : Reach M C s) : M.Reachable s :=
  h.mono (fun _ _ _ => trivial)

/-- **The invariant rule.** What holds initially and is kept by every step that meets the
condition holds at the end of every run. -/
theorem Reach.invariant (I : σ → Prop) (hinit : ∀ s, M.init s → I s)
    (hstep : ∀ s e s', I s → C s e → M.step s e = some s' → I s') {s : σ} (h : Reach M C s) :
    I s := by
  induction h with
  | init h0 => exact hinit _ h0
  | step _ hc hs ih => exact hstep _ _ _ ih hc hs

/-- **The exact condition rule.** If a step keeps the property exactly when it meets the condition,
then the property holds in exactly the states that end a run meeting the condition. -/
theorem Reachable.iff_reach (I P : σ → Prop) (hinit : ∀ s, M.init s → I s ∧ P s)
    (hinv : ∀ s e s', I s → M.step s e = some s' → I s')
    (hstep : ∀ s e s', I s → M.step s e = some s' → (P s' ↔ P s ∧ C s e)) {s : σ}
    (h : M.Reachable s) : P s ↔ Reach M C s := by
  constructor
  · intro hP
    -- the property holds before the last step as well, so the run before it meets the condition
    induction h with
    | init h0 => exact .init h0
    | step hr _ hs ih =>
        have hI := hr.invariant I (fun s h0 => (hinit s h0).1) (fun s e s' hi _ hs => hinv s e s' hi hs)
        obtain ⟨hbefore, hc⟩ := (hstep _ _ _ hI hs).mp hP
        exact .step (ih hbefore) hc hs
  · intro hreach
    refine (hreach.invariant (fun s => I s ∧ P s) hinit ?_).2
    rintro s e s' ⟨hI, hP⟩ hc hs
    exact ⟨hinv s e s' hI hs, (hstep s e s' hI hs).mpr ⟨hP, hc⟩⟩

theorem Reach.exec_where [∀ s e, Decidable (C s e)] :
    ∀ (es : List ε) {s s' : σ}, Reach M C s → M.execWhere C s es = some s' → Reach M C s' := by
  intro es
  induction es with
  | nil =>
      intro s s' hs h
      simp only [execWhere, Option.some.injEq] at h
      exact h ▸ hs
  | cons e es ih =>
      intro s s' hs h
      simp only [execWhere] at h
      split_ifs at h with hc
      obtain ⟨t, ht, hes⟩ := Option.bind_eq_some_iff.mp h
      exact ih (.step hs hc ht) hes

theorem reach_of_execWhere [∀ s e, Decidable (C s e)] {s s' : σ} (es : List ε) (h0 : M.init s)
    (h : M.execWhere C s es = some s') : Reach M C s' :=
  Reach.exec_where es (.init h0) h

theorem exec_cons {s t s' : σ} {e : ε} {es : List ε} (h : M.step s e = some t)
    (hes : M.exec t es = some s') : M.exec s (e :: es) = some s' := by
  rw [EventMachine.exec, h, Option.bind_some, hes]

/-- Reachable states are closed under further runs. -/
theorem Reachable.exec :
    ∀ (es : List ε) {s s' : σ}, M.Reachable s → M.exec s es = some s' → M.Reachable s' := by
  intro es
  induction es with
  | nil =>
      intro s s' hs h
      simp only [EventMachine.exec, Option.some.injEq] at h
      exact h ▸ hs
  | cons e es ih =>
      intro s s' hs h
      obtain ⟨t, ht, hes⟩ := Option.bind_eq_some_iff.mp h
      exact ih (.step hs trivial ht) hes

theorem Reachable.after {s s' : σ} (h : M.Reachable s) (h' : (M.after s).Reachable s') :
    M.Reachable s' := by
  induction h' with
  | init h0 => exact h0 ▸ h
  | step _ _ hs ih => exact .step ih trivial hs

theorem reachable_of_exec {s s' : σ} (es : List ε) (h0 : M.init s) (h : M.exec s es = some s') :
    M.Reachable s' :=
  Reachable.exec es (.init h0) h

/-! ## All states of a run -/

/-- **The rule for all states of a run.** For a property that a later step may restore: if inside an
invariant a step from a state with the property keeps it exactly when it meets the condition, then
the runs that have the property all along are the runs whose steps all meet the condition. -/
theorem always_iff_each (I P : σ → Prop)
    (hinv : ∀ s e s', I s → M.step s e = some s' → I s')
    (hstep : ∀ s e s', I s → P s → M.step s e = some s' → (P s' ↔ C s e)) :
    ∀ (es : List ε) {s s' : σ}, I s → P s → M.exec s es = some s' →
      (M.Always P s es ↔ M.Each C s es) := by
  intro es
  induction es with
  | nil =>
      intro s s' _ hP _
      exact iff_of_true hP trivial
  | cons e es ih =>
      intro s s' hI hP h
      obtain ⟨t, ht, hes⟩ := Option.bind_eq_some_iff.mp h
      have hone : ∀ Q : σ → Prop, (∀ u ∈ M.step s e, Q u) ↔ Q t := by
        intro Q
        rw [ht]
        simp
      rw [Always, Each, hone, hone, and_iff_right hP, ← hstep s e t hI hP ht]
      constructor
      · intro halways
        -- the property holds in the first state of the rest of the run
        have hPt : P t := by
          cases es with
          | nil => exact halways
          | cons _ _ => exact halways.1
        exact ⟨hPt, (ih (hinv s e t hI ht) hPt hes).mp halways⟩
      · rintro ⟨hPt, heach⟩
        exact (ih (hinv s e t hI ht) hPt hes).mpr heach

/-- **The rule for what a run ends with.** If a step keeps the property exactly when it meets the
condition, then the property holds at the end of a run exactly if it held before and every step of
the run meets the condition. -/
theorem exec_iff_each (I P : σ → Prop) (hinv : ∀ s e s', I s → M.step s e = some s' → I s')
    (hstep : ∀ s e s', I s → M.step s e = some s' → (P s' ↔ P s ∧ C s e)) :
    ∀ (es : List ε) {s s' : σ}, I s → M.exec s es = some s' → (P s' ↔ P s ∧ M.Each C s es) := by
  intro es
  induction es with
  | nil =>
      intro s s' _ h
      obtain rfl := Option.some.inj h
      exact (and_iff_left trivial).symm
  | cons e es ih =>
      intro s s' hI h
      obtain ⟨t, ht, hes⟩ := Option.bind_eq_some_iff.mp h
      rw [ih (hinv s e t hI ht) hes, hstep s e t hI ht, Each, ht, and_assoc]
      simp

theorem Always.each {P : σ → Prop} (hPC : ∀ s e, P s → C s e) :
    ∀ {es : List ε} {s : σ}, M.Always P s es → M.Each C s es := by
  intro es
  induction es with
  | nil => exact fun _ => trivial
  | cons e es ih => exact fun h => ⟨hPC _ e h.1, fun s' hs' => ih (h.2 s' hs')⟩

theorem execWhere_eq_some_iff [∀ s e, Decidable (C s e)] :
    ∀ (es : List ε) {s s' : σ}, M.execWhere C s es = some s' ↔
      M.exec s es = some s' ∧ M.Each C s es := by
  intro es
  induction es with
  | nil =>
      intro s s'
      exact (and_iff_left trivial).symm
  | cons e es ih =>
      intro s s'
      rw [execWhere, exec, Each]
      split_ifs with hc
      · cases ht : M.step s e with
        | none => simp
        | some t => simp [ih, hc]
      · simp [hc]

/-- **The history rule.** If every step keeps a relation between the state and a value that each
event updates, then the relation holds of the final state and the value that the events of the run
make. -/
theorem exec_history {γ : Type x} (f : γ → ε → γ) (I : σ → γ → Prop)
    (hstep : ∀ s g e s', I s g → M.step s e = some s' → I s' (f g e)) :
    ∀ (es : List ε) {s s' : σ} {g : γ}, I s g → M.exec s es = some s' → I s' (es.foldl f g) := by
  intro es
  induction es with
  | nil =>
      intro s s' g hs h
      simp only [EventMachine.exec, Option.some.injEq] at h
      exact h ▸ hs
  | cons e es ih =>
      intro s s' g hs h
      obtain ⟨t, ht, hes⟩ := Option.bind_eq_some_iff.mp h
      exact ih (hstep _ _ _ _ hs ht) hes

/-- **The record rule.** The history rule for what is recorded of the events. -/
theorem exec_record {γ : Type x} (f : ε → Option γ) (I : σ → List γ → Prop)
    (hstep : ∀ s g e s', I s g → M.step s e = some s' → I s' (g ++ (f e).toList))
    {es : List ε} {s s' : σ} {g : List γ} (hs : I s g) (h : M.exec s es = some s') :
    I s' (g ++ es.filterMap f) := by
  have hfold : ∀ (es : List ε) (g : List γ),
      es.foldl (fun g e => g ++ (f e).toList) g = g ++ es.filterMap f := by
    intro es
    induction es with
    | nil => simp
    | cons e es ih =>
        intro g
        rw [List.foldl_cons, ih, List.append_assoc]
        cases hf : f e <;> simp [hf]
  have hend := exec_history (fun g e => g ++ (f e).toList) I hstep es hs h
  rwa [hfold] at hend

/-! ## Refinement -/

/-- **Refinement.** The steps of `M` that meet `C` are, seen through `abs` and inside the
invariant `I`, steps of the abstract machine `A` or no steps at all. -/
structure Refines (M : EventMachine σ ε) (C : σ → ε → Prop) (A : EventMachine α β)
    (I : σ → Prop) (abs : σ → α) : Prop where
  inv_init : ∀ s, M.init s → I s
  inv_step : ∀ s e s', I s → C s e → M.step s e = some s' → I s'
  init : ∀ s, M.init s → A.init (abs s)
  step : ∀ s e s', I s → C s e → M.step s e = some s' →
    abs s' = abs s ∨ ∃ b, A.step (abs s) b = some (abs s')

/-- A run of a refinement is, seen through `abs`, a run of the abstract machine. -/
theorem Refines.reachable {A : EventMachine α β} {I : σ → Prop} {abs : σ → α}
    (R : Refines M C A I abs) {s : σ} (h : Reach M C s) : I s ∧ A.Reachable (abs s) := by
  induction h with
  | init h0 => exact ⟨R.inv_init _ h0, .init (R.init _ h0)⟩
  | step _ hc hs ih =>
      refine ⟨R.inv_step _ _ _ ih.1 hc hs, ?_⟩
      rcases R.step _ _ _ ih.1 hc hs with heq | ⟨b, hb⟩
      · exact heq ▸ ih.2
      · exact .step ih.2 trivial hb

/-- **Lockstep.** If on related states two machines can make the same steps, and these lead to
related states, then they can make the same runs. -/
theorem exec_lockstep {N : EventMachine α β} (R : σ → α → Prop) (g : ε → β)
    (hstep : ∀ s a e, R s a → Option.Rel R (M.step s e) (N.step a (g e))) :
    ∀ (es : List ε) {s : σ} {a : α}, R s a → Option.Rel R (M.exec s es) (N.exec a (es.map g)) := by
  intro es
  induction es with
  | nil =>
      intro s a hR
      exact .some hR
  | cons e es ih =>
      intro s a hR
      have hone := hstep s a e hR
      rw [List.map_cons, exec, exec]
      cases hs : M.step s e with
      | none =>
          rw [hs] at hone
          cases hN : N.step a (g e) with
          | none => exact .none
          | some a' =>
              rw [hN] at hone
              cases hone
      | some s' =>
          rw [hs] at hone
          cases hN : N.step a (g e) with
          | none =>
              rw [hN] at hone
              cases hone
          | some a' =>
              rw [hN] at hone
              cases hone with
              | some hR' => exact ih hR'

theorem exec_lockstep_left {N : EventMachine α β} {R : σ → α → Prop} {g : ε → β}
    (hstep : ∀ s a e, R s a → Option.Rel R (M.step s e) (N.step a (g e))) {es : List ε} {s s' : σ}
    {a : α} (hR : R s a) (h : M.exec s es = some s') :
    ∃ a', N.exec a (es.map g) = some a' ∧ R s' a' := by
  have hrun := exec_lockstep R g hstep es hR
  rw [h] at hrun
  cases hN : N.exec a (es.map g) with
  | none =>
      rw [hN] at hrun
      cases hrun
  | some a' =>
      rw [hN] at hrun
      cases hrun with
      | some hR' => exact ⟨a', rfl, hR'⟩

theorem exec_lockstep_right {N : EventMachine α β} {R : σ → α → Prop} {g : ε → β}
    (hstep : ∀ s a e, R s a → Option.Rel R (M.step s e) (N.step a (g e))) {es : List ε} {s : σ}
    {a a' : α} (hR : R s a) (h : N.exec a (es.map g) = some a') :
    ∃ s', M.exec s es = some s' ∧ R s' a' := by
  have hrun := exec_lockstep R g hstep es hR
  rw [h] at hrun
  cases hM : M.exec s es with
  | none =>
      rw [hM] at hrun
      cases hrun
  | some s' =>
      rw [hM] at hrun
      cases hrun with
      | some hR' => exact ⟨s', rfl, hR'⟩

/-! ## Components

Machines of one kind that run side by side on a shared state: an event belongs to one of them.
-/

/-- The events of one component. -/
def eventsOf {ι : Type u} [DecidableEq ι] (i : ι) (es : List (ι × β)) : List β :=
  es.filterMap (fun e => if e.1 = i then some e.2 else none)

/-- **Components.** If every step of the whole is a step of the component that it belongs to, seen
through a relation between the whole and its components, then every component makes a run of its
own: the run of its events. -/
theorem exec_components {ι : Type u} [DecidableEq ι] {M : EventMachine σ (ι × β)}
    {N : EventMachine α β} {R : σ → (ι → α) → Prop}
    (hstep : ∀ s t i b s', R s t → M.step s (i, b) = some s' →
      ∃ a, N.step (t i) b = some a ∧ R s' (Function.update t i a)) :
    ∀ (es : List (ι × β)) {s s' : σ} {t : ι → α}, R s t → M.exec s es = some s' →
      ∃ t', R s' t' ∧ ∀ i, N.exec (t i) (eventsOf i es) = some (t' i) := by
  intro es
  induction es with
  | nil =>
      intro s s' t hR h
      simp only [EventMachine.exec, Option.some.injEq] at h
      exact ⟨t, h ▸ hR, fun _ => rfl⟩
  | cons e es ih =>
      intro s s' t hR h
      obtain ⟨i, b⟩ := e
      obtain ⟨u, hu, hes⟩ := Option.bind_eq_some_iff.mp h
      obtain ⟨a, ha, hR⟩ := hstep _ _ _ _ _ hR hu
      obtain ⟨t', ht', hruns⟩ := ih hR hes
      refine ⟨t', ht', fun j => ?_⟩
      have hrun := hruns j
      by_cases hij : i = j
      · -- the component makes its step, then the rest of its run
        subst hij
        rw [Function.update_self] at hrun
        simp only [eventsOf, List.filterMap_cons, if_true, EventMachine.exec, ha, Option.bind_some]
        exact hrun
      · rw [Function.update_of_ne (Ne.symm hij)] at hrun
        simp only [eventsOf, List.filterMap_cons, if_neg hij]
        exact hrun

end EventMachine
