import Mathlib.Tactic

set_option autoImplicit false

/-! # Quoted literals

A literal ends at the next quotation mark that is not escaped, and an escape mark makes one item of
itself and the next one. Some items may not stand in a literal at all. If a text is put between two
quotation marks as it is, then what is read is the text exactly if it has no quotation mark, no
escape mark and no such item.
-/

universe u

/-- How literals are written. -/
structure LiteralSyntax (α : Type u) where
  quote : α
  escapeMark : α
  /-- what an escaped item stands for -/
  escape : α → α
  /-- the items that a literal cannot have -/
  forbidden : α → Bool

namespace LiteralSyntax

variable {α : Type u}

/-- A text that stands for itself. -/
def Plain (g : LiteralSyntax α) (text : List α) : Prop :=
  ∀ x ∈ text, x ≠ g.quote ∧ x ≠ g.escapeMark ∧ g.forbidden x = false

theorem Plain.cons {g : LiteralSyntax α} {x : α} {text : List α} (hquote : x ≠ g.quote)
    (hescape : x ≠ g.escapeMark) (hforbidden : g.forbidden x = false) (h : g.Plain text) :
    g.Plain (x :: text) :=
  List.forall_mem_cons.mpr ⟨⟨hquote, hescape, hforbidden⟩, h⟩

variable [DecidableEq α] (g : LiteralSyntax α)

instance (text : List α) : Decidable (g.Plain text) := List.decidableBAll _ _

/-- Read a literal after its opening quotation mark: its value and what comes after it, `none` if it
does not end. -/
def read : List α → Option (List α × List α)
  | [] => none
  | [x] => if x = g.quote then some ([], []) else none
  | x :: y :: rest =>
      if x = g.quote then some ([], y :: rest)
      else if x = g.escapeMark then (read rest).map (fun r => (g.escape y :: r.1, r.2))
      else if g.forbidden x then none
      else (read (y :: rest)).map (fun r => (x :: r.1, r.2))

variable {g}

theorem read_quote (xs : List α) : g.read (g.quote :: xs) = some ([], xs) := by
  cases xs with
  | nil => rw [read, if_pos rfl]
  | cons y rest => rw [read, if_pos rfl]

theorem read_ordinary {x : α} (hquote : x ≠ g.quote) (hescape : x ≠ g.escapeMark)
    (hforbidden : g.forbidden x = false) (xs : List α) :
    g.read (x :: xs) = (g.read xs).map (fun r => (x :: r.1, r.2)) := by
  cases xs with
  | nil => simp only [read, if_neg hquote, Option.map_none]
  | cons y rest =>
      rw [read, if_neg hquote, if_neg hescape, hforbidden, if_neg Bool.false_ne_true]

/-- **A plain text** is read as itself, up to the quotation mark after it. -/
theorem read_plain {text : List α} (h : g.Plain text) (rest : List α) :
    g.read (text ++ g.quote :: rest) = some (text, rest) := by
  induction text with
  | nil => exact read_quote rest
  | cons x text ih =>
      obtain ⟨hquote, hescape, hforbidden⟩ := h x List.mem_cons_self
      rw [List.cons_append, read_ordinary hquote hescape hforbidden,
        ih (fun y hy => h y (List.mem_cons_of_mem _ hy)), Option.map_some]

/-- **What is read** is shorter than the text it is read from, at least by the quotation mark, and by
no more than that only if it is plain. -/
theorem read_sound {s value rest : List α} (h : g.read s = some (value, rest)) :
    value.length + 1 + rest.length ≤ s.length ∧
      (value.length + 1 + rest.length = s.length → g.Plain value) := by
  induction s using read.induct g generalizing value with
  | case1 => cases h
  | case2 =>
      rw [read_quote] at h
      obtain ⟨rfl, rfl⟩ := Prod.mk.inj (Option.some.inj h)
      exact ⟨Nat.le_refl _, fun _ => List.forall_mem_nil _⟩
  | case3 x hquote =>
      rw [read, if_neg hquote] at h
      cases h
  | case4 y xs =>
      rw [read_quote] at h
      obtain ⟨rfl, rfl⟩ := Prod.mk.inj (Option.some.inj h)
      refine ⟨?_, fun _ => List.forall_mem_nil _⟩
      simp only [List.length_nil, List.length_cons]
      omega
  | case5 y xs hquote ih =>
      -- an escaped item takes two places and gives one
      rw [read, if_neg hquote, if_pos rfl] at h
      obtain ⟨⟨value', rest'⟩, hread, heq⟩ := Option.map_eq_some_iff.mp h
      simp only [Prod.mk.injEq] at heq
      obtain ⟨rfl, rfl⟩ := heq
      obtain ⟨hle, -⟩ := ih hread
      simp only [List.length_cons]
      exact ⟨by omega, fun hlength => absurd hlength (by omega)⟩
  | case6 x y xs hquote hescape hforbidden =>
      rw [read, if_neg hquote, if_neg hescape, if_pos hforbidden] at h
      cases h
  | case7 x y xs hquote hescape hforbidden ih =>
      rw [read, if_neg hquote, if_neg hescape, if_neg hforbidden] at h
      obtain ⟨⟨value', rest'⟩, hread, heq⟩ := Option.map_eq_some_iff.mp h
      simp only [Prod.mk.injEq] at heq
      obtain ⟨rfl, rfl⟩ := heq
      obtain ⟨hle, hplain⟩ := ih hread
      have hx : g.forbidden x = false := by rwa [Bool.not_eq_true] at hforbidden
      simp only [List.length_cons] at hle hplain ⊢
      exact ⟨by omega, fun hlength => (hplain (by omega)).cons hquote hescape hx⟩

/-- **Put between quotation marks**, a text is read as itself exactly if it is plain. -/
theorem read_quoted_iff (text : List α) :
    g.read (text ++ [g.quote]) = some (text, []) ↔ g.Plain text := by
  constructor
  · intro h
    refine (read_sound h).2 ?_
    rw [List.length_nil, List.length_append, List.length_singleton]
  · intro h
    exact read_plain h []

end LiteralSyntax
