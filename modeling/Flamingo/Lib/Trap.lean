import Flamingo.Lib.Machine

set_option autoImplicit false

/-! # Traps

A step function that answers `none` where the program traps, made into a machine: an event that can
happen in a state leads to the next state, or to the end of the process. When a condition on the
state and the event says exactly where the step function does not trap, the runs that do not trap
are the runs that meet the condition.
-/

universe u v

/-- A process that is running in a state, or has ended in a trap. -/
inductive Process (σ : Type u)
  | running (s : σ)
  | trapped

namespace Process

variable {σ : Type u} {ε : Type v}

/-- The state of a process that is running. -/
def running? : Process σ → Option σ
  | .running s => some s
  | .trapped => none

theorem running?_eq_none_iff {p : Process σ} : p.running? = none ↔ p = .trapped := by
  cases p with
  | running s => simp [running?]
  | trapped => simp [running?]

/-- What an event that can happen does. -/
def next (step : σ → ε → Option σ) (s : σ) (e : ε) : Process σ :=
  match step s e with
  | some s' => .running s'
  | none => .trapped

def machine (init : σ → Prop) (enabled : σ → ε → Bool) (step : σ → ε → Option σ) :
    EventMachine (Process σ) ε where
  init p := ∃ s, init s ∧ p = .running s
  step
    | .running s, e => if enabled s e then some (next step s e) else none
    | .trapped, _ => none

/-- A condition on the steps of a process. -/
def Meets (C : σ → ε → Prop) : Process σ → ε → Prop
  | .running s, e => C s e
  | .trapped, _ => True

instance {C : σ → ε → Prop} [∀ s e, Decidable (C s e)] (p : Process σ) (e : ε) :
    Decidable (Meets C p e) :=
  match p with
  | .running s => inferInstanceAs (Decidable (C s e))
  | .trapped => .isTrue trivial

variable {init : σ → Prop} {enabled : σ → ε → Bool} {step : σ → ε → Option σ}

/-- **What a step is**: an event that can happen in the state of a process that is running. -/
theorem machine_step_cases {p p' : Process σ} {e : ε}
    (h : (machine init enabled step).step p e = some p') :
    ∃ s, p = .running s ∧ enabled s e = true ∧ p' = next step s e := by
  cases p with
  | trapped => cases h
  | running s =>
      simp only [machine] at h
      split_ifs at h with henabled
      exact ⟨s, rfl, henabled, (Option.some.inj h).symm⟩

theorem next_of_some {s s' : σ} {e : ε} (h : step s e = some s') :
    next step s e = .running s' := by
  rw [next, h]

theorem next_of_none {s : σ} {e : ε} (h : step s e = none) : next step s e = .trapped := by
  rw [next, h]

theorem next_ne_trapped {s : σ} {e : ε} : next step s e ≠ .trapped ↔ (step s e).isSome := by
  unfold next
  cases step s e with
  | none => simp
  | some s' => simp

/-- **No trap.** The processes that have not trapped are those whose steps have all met the
condition that the step function succeeds on. -/
theorem ne_trapped_iff_reach {C : σ → ε → Prop}
    (hC : ∀ s e, enabled s e = true → ((step s e).isSome ↔ C s e)) {p : Process σ}
    (h : (machine init enabled step).Reachable p) :
    p ≠ .trapped ↔ (machine init enabled step).Reach (Meets C) p := by
  refine h.iff_reach (fun _ => True) (fun p => p ≠ .trapped) ?_ (fun _ _ _ _ _ => trivial) ?_
  · rintro p ⟨s, -, rfl⟩
    exact ⟨trivial, nofun⟩
  · intro p e p' _ hs
    obtain ⟨s, rfl, henabled, rfl⟩ := machine_step_cases hs
    rw [next_ne_trapped, hC s e henabled]
    exact ⟨fun hc => ⟨nofun, hc⟩, fun hc => hc.2⟩

end Process
