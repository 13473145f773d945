import Flamingo.Lib.Machine

set_option autoImplicit false

/-! # The states that a run has been in

A run is a list of events, and its prefixes end in the states it has been in. A record that the
steps keep of something was made when it was there, at the end of some prefix (`exec_ever`).
-/

universe u v

namespace EventMachine

variable {σ : Type u} {ε : Type v} {M : EventMachine σ ε}

theorem exec_append (es es' : List ε) (s : σ) :
    M.exec s (es ++ es') = (M.exec s es).bind (fun t => M.exec t es') := by
  induction es generalizing s with
  | nil => rfl
  | cons e es ih =>
      simp only [List.cons_append, exec]
      cases M.step s e with
      | none => rfl
      | some t => exact ih t

/-- A run with one more event. -/
theorem exec_append_singleton {es : List ε} {e : ε} {s s' : σ}
    (h : M.exec s (es ++ [e]) = some s') : ∃ t, M.exec s es = some t ∧ M.step t e = some s' := by
  rw [exec_append] at h
  obtain ⟨t, ht, hlast⟩ := Option.bind_eq_some_iff.mp h
  refine ⟨t, ht, ?_⟩
  simp only [exec] at hlast
  obtain ⟨t', hstep, hend⟩ := Option.bind_eq_some_iff.mp hlast
  rwa [← Option.some.inj hend]

/-- What every step with an event of the run keeps is kept by the run. -/
theorem exec_keeps_of {P : σ → Prop} {C : ε → Prop}
    (hstep : ∀ s e s', P s → C e → M.step s e = some s' → P s') :
    ∀ {es : List ε} {s s' : σ}, (∀ e ∈ es, C e) → P s → M.exec s es = some s' → P s' := by
  intro es
  induction es with
  | nil =>
      intro s s' _ hP h
      exact Option.some.inj h ▸ hP
  | cons e es ih =>
      intro s s' hC hP h
      obtain ⟨t, ht, hrest⟩ := Option.bind_eq_some_iff.mp h
      exact ih (fun e he => hC e (List.mem_cons_of_mem _ he))
        (hstep s e t hP (hC e List.mem_cons_self) ht) hrest

theorem exec_keeps {P : σ → Prop} (hstep : ∀ s e s', P s → M.step s e = some s' → P s')
    {es : List ε} {s s' : σ} (hP : P s) (h : M.exec s es = some s') : P s' :=
  exec_keeps_of (C := fun _ => True) (fun s e s' hs _ he => hstep s e s' hs he)
    (fun _ _ => trivial) hP h

/-- An event of a run happened between two of its states. -/
theorem exec_of_mem {es : List ε} {e : ε} (he : e ∈ es) {s s' : σ} (h : M.exec s es = some s') :
    ∃ before after t u, es = before ++ e :: after ∧ M.exec s before = some t ∧
      M.step t e = some u ∧ M.exec u after = some s' := by
  obtain ⟨before, after, rfl⟩ := List.append_of_mem he
  rw [exec_append] at h
  obtain ⟨t, ht, h⟩ := Option.bind_eq_some_iff.mp h
  obtain ⟨u, hu, hafter⟩ := Option.bind_eq_some_iff.mp h
  exact ⟨before, after, t, u, rfl, ht, hu, hafter⟩

/-- **The origin rule.** If a step makes `P` true only where `Q` holds of the state and the event, then
a run at whose end `P` holds has such a step. -/
theorem exec_origin (I P : σ → Prop) (Q : σ → ε → Prop)
    (hinv : ∀ s e s', I s → M.step s e = some s' → I s')
    (hstep : ∀ s e s', I s → M.step s e = some s' → P s' → P s ∨ Q s e) {s : σ} (h0 : I s)
    (hnot : ¬ P s) {es : List ε} {s' : σ} (h : M.exec s es = some s') (hP : P s') :
    ∃ before e after t, es = before ++ e :: after ∧ M.exec s before = some t ∧ Q t e := by
  induction es using List.reverseRecOn generalizing s' with
  | nil =>
      obtain rfl := Option.some.inj h
      exact absurd hP hnot
  | append_singleton es e ih =>
      obtain ⟨t, ht, hlast⟩ := exec_append_singleton h
      have hI : I t := exec_keeps hinv h0 ht
      rcases hstep _ _ _ hI hlast hP with hbefore | hQ
      · obtain ⟨before, e', after, u, rfl, hu, hQ⟩ := ih ht hbefore
        exact ⟨before, e', after ++ [e], u, by simp, hu, hQ⟩
      · exact ⟨es, e, [], t, rfl, ht, hQ⟩

/-- `Q` held at the end of a prefix of the run. -/
def Ever (M : EventMachine σ ε) (Q : σ → Prop) (s : σ) (es : List ε) : Prop :=
  ∃ before after t, es = before ++ after ∧ M.exec s before = some t ∧ Q t

theorem Ever.append {Q : σ → Prop} {s : σ} {es : List ε} (h : M.Ever Q s es) (es' : List ε) :
    M.Ever Q s (es ++ es') := by
  obtain ⟨before, after, t, rfl, ht, hQ⟩ := h
  exact ⟨before, after ++ es', t, List.append_assoc _ _ _, ht, hQ⟩

/-- **The record rule.** If a step makes `P` true only by making `Q` true, then `P` at the end of a
run means that `Q` held at the end of one of its prefixes. -/
theorem exec_ever (I P Q : σ → Prop) (hinv : ∀ s e s', I s → M.step s e = some s' → I s')
    (hstep : ∀ s e s', I s → M.step s e = some s' → P s' → P s ∨ Q s') {s : σ} (h0 : I s)
    (hinit : P s → Q s) :
    ∀ (es : List ε) {s' : σ}, M.exec s es = some s' → I s' ∧ (P s' → M.Ever Q s es) := by
  intro es
  induction es using List.reverseRecOn with
  | nil =>
      intro s' h
      obtain rfl := Option.some.inj h
      exact ⟨h0, fun hP => ⟨[], [], s, rfl, rfl, hinit hP⟩⟩
  | append_singleton es e ih =>
      intro s' h
      obtain ⟨t, ht, hlast⟩ := exec_append_singleton h
      obtain ⟨hI, hP⟩ := ih ht
      refine ⟨hinv _ _ _ hI hlast, fun hP' => ?_⟩
      rcases hstep _ _ _ hI hlast hP' with hbefore | hQ
      · exact (hP hbefore).append [e]
      · exact ⟨es ++ [e], [], s', (List.append_nil _).symm, h, hQ⟩

end EventMachine
