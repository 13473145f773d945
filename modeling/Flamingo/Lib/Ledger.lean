import Flamingo.Lib.Machine

set_option autoImplicit false

/-! # Ledgers

A ledger is an append-only list of entries, some pairs of which conflict. The abstract machine
appends an entry only if it conflicts with none that is there, so its ledgers stay consistent.

A client that reads the ledger first and appends later has compared its entry with the prefix it
has read (`seen` entries). The entries that were appended in the meantime are the rest of the
list, and the append keeps the ledger consistent exactly if the entry conflicts with none of
them (`consistent_append_iff`).
-/

namespace Ledger

universe u v

variable {α : Type u} (conflict : α → α → Prop)

def Consistent (l : List α) : Prop := l.Pairwise (fun a b => ¬ conflict a b)

open Classical in
/-- The machine that appends what does not conflict. -/
noncomputable def machine : EventMachine (List α) α where
  init := Consistent conflict
  step l a := if ∀ b ∈ l, ¬ conflict b a then some (l ++ [a]) else none

variable {conflict}

theorem consistent_nil : Consistent conflict [] := List.Pairwise.nil

theorem consistent_append {l : List α} {a : α} :
    Consistent conflict (l ++ [a]) ↔ Consistent conflict l ∧ ∀ b ∈ l, ¬ conflict b a := by
  simp [Consistent, List.pairwise_append]

/-- A ledger of two entries is not consistent if entries that look like them conflict. -/
theorem not_consistent_of_map_eq {β : Type v} {f : α → β} {b b' : β} {l : List α}
    (hconflict : ∀ x y, f x = b → f y = b' → conflict x y) (h : l.map f = [b, b']) :
    ¬ Consistent conflict l := by
  obtain ⟨x, rest, rfl, hx, hrest⟩ := List.map_eq_cons_iff.mp h
  obtain ⟨y, _, rfl, hy, -⟩ := List.map_eq_cons_iff.mp hrest
  intro hconsistent
  rw [Consistent, List.pairwise_cons] at hconsistent
  exact hconsistent.1 y List.mem_cons_self (hconflict x y hx hy)

theorem machine_step {l : List α} {a : α} (h : ∀ b ∈ l, ¬ conflict b a) :
    (machine conflict).step l a = some (l ++ [a]) := if_pos h

/-- Every ledger that the machine can reach is consistent. -/
theorem consistent_of_reachable {l : List α} (h : (machine conflict).Reachable l) :
    Consistent conflict l := by
  apply h.invariant (Consistent conflict) (fun _ h0 => h0)
  intro l a l' hl _ hstep
  simp only [machine] at hstep
  split_ifs at hstep with hfree
  obtain rfl := Option.some.inj hstep
  exact consistent_append.mpr ⟨hl, hfree⟩

/-! ## Reading first and appending later -/

theorem forall_mem_take_drop {p : α → Prop} {l : List α} (seen : Nat) :
    (∀ b ∈ l, p b) ↔ (∀ b ∈ l.take seen, p b) ∧ ∀ b ∈ l.drop seen, p b := by
  conv_lhs => rw [← List.take_append_drop seen l]
  simp only [List.mem_append, or_imp, forall_and]

/-- An entry that was compared with the first `seen` entries may be appended exactly if it
conflicts with none of the later ones. -/
theorem consistent_append_iff {l : List α} {a : α} {seen : Nat}
    (hseen : ∀ b ∈ l.take seen, ¬ conflict b a) :
    Consistent conflict (l ++ [a]) ↔
      Consistent conflict l ∧ ∀ b ∈ l.drop seen, ¬ conflict b a := by
  rw [consistent_append, forall_mem_take_drop seen]
  constructor
  · rintro ⟨hl, -, hlater⟩
    exact ⟨hl, hlater⟩
  · rintro ⟨hl, hlater⟩
    exact ⟨hl, hseen, hlater⟩

end Ledger
