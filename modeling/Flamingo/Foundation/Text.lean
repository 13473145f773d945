import Mathlib.Tactic

set_option autoImplicit false

/-! # Swift strings

The string operations of the standard library that the program's logic rests on:
`components(separatedBy:)`, the failable initialiser `Int(_:)` and the `CONTAINS[c]` operator
of a Realm predicate, which ignores the case of the letters `A` to `Z` only.

`==` of two strings is canonical equivalence. Where a text that a user has typed is compared, its
normal form is a parameter of the model; ids, categories and predicates are compared as texts that are
in one normal form.
-/

namespace Text

/-- `components(separatedBy:)` with a one-character separator. -/
def components (s : String) (separator : Char) : List (List Char) := s.toList.splitOn separator

/-- The range of a 64-bit `Int`. -/
def fitsInt (n : Int) : Bool := decide (-2 ^ 63 ≤ n) && decide (n < 2 ^ 63)

/-- The value of a non-empty list of decimal digits. -/
def digits? (ds : List Char) : Option Nat :=
  if ds.isEmpty || ds.any (fun c => !c.isDigit) then none
  else some (ds.foldl (fun n c => 10 * n + (c.toNat - '0'.toNat)) 0)

/-- `Int(_:)`: an optional sign and decimal digits, within the range of `Int`. -/
def int? (s : List Char) : Option Int :=
  let value : Option Int := match s with
    | '-' :: ds => (digits? ds).map (fun n => -(n : Int))
    | '+' :: ds => (digits? ds).map (fun n => (n : Int))
    | ds => (digits? ds).map (fun n => (n : Int))
  value.filter fitsInt

/-- `self CONTAINS[c] other`. -/
def containsC (self other : String) : Bool :=
  decide (other.toList.map Char.toLower <:+: self.toList.map Char.toLower)

theorem containsC_self (s : String) : containsC s s = true := by
  simp [containsC]

/-- The empty text is contained in every one. -/
theorem containsC_empty (s : String) : containsC s "" = true := by
  simp [containsC]

example : (components "1:05" ':').map int? = [some 1, some 5] := by decide

/-! ## The case of letters -/

/-- `other` is contained in `self`, where characters are the same that `fold` makes one. -/
def containsFolded (fold : Char → Char) (self other : String) : Bool :=
  decide (other.toList.map fold <:+: self.toList.map fold)

/-- The characters of the text have no other case than the letters `A` to `Z` have. -/
def SameCases (fold : Char → Char) (text : String) : Prop :=
  ∀ c ∈ text.toList, ∀ d, fold d = fold c ↔ d.toLower = c.toLower

section Maps

variable {α β γ : Type} {f : α → β} {g : α → γ} {q l : List α}

theorem map_eq_map_iff_of_agree (h : ∀ c ∈ q, ∀ d, f d = f c ↔ g d = g c) :
    q.map f = l.map f ↔ q.map g = l.map g := by
  induction q generalizing l with
  | nil => rw [List.map_nil, List.map_nil, List.nil_eq, List.nil_eq, List.map_eq_nil_iff, List.map_eq_nil_iff]
  | cons c q ih =>
      cases l with
      | nil => exact iff_of_false (List.cons_ne_nil _ _) (List.cons_ne_nil _ _)
      | cons d l =>
          have hq := ih (l := l) (fun c hc => h c (List.mem_cons_of_mem _ hc))
          rw [List.map_cons, List.map_cons, List.map_cons, List.map_cons, List.cons.injEq,
            List.cons.injEq, hq, eq_comm, h c List.mem_cons_self d, eq_comm]

theorem infix_map_iff_of_agree (h : ∀ c ∈ q, ∀ d, f d = f c ↔ g d = g c) :
    q.map f <:+: l.map f ↔ q.map g <:+: l.map g := by
  rw [List.infix_map_iff, List.infix_map_iff]
  exact exists_congr fun part => and_congr_right fun _ => map_eq_map_iff_of_agree h

/-- A text with another character at one place tells whether the two are the same. -/
theorem infix_map_change_iff (a b : List α) (c d : α) :
    (a ++ c :: b).map f <:+: (a ++ d :: b).map f ↔ f d = f c := by
  constructor
  · intro h
    have heq := h.eq_of_length (by simp only [List.length_map, List.length_append, List.length_cons])
    simp only [List.map_append, List.map_cons, List.append_cancel_left_eq, List.cons.injEq] at heq
    exact heq.1.symm
  · intro h
    rw [List.map_append, List.map_append, List.map_cons, List.map_cons, h]

end Maps

/-- **`CONTAINS[c]` ignores the case** of a text exactly if it has no letter with a case beyond `A` to
`Z`. -/
theorem containsC_eq_iff (fold : Char → Char) (text : String) :
    (∀ self, containsC self text = containsFolded fold self text) ↔ SameCases fold text := by
  constructor
  · intro h c hc d
    obtain ⟨a, b, hab⟩ := List.append_of_mem hc
    have hself := h (String.ofList (a ++ d :: b))
    rw [containsC, containsFolded, String.toList_ofList, hab, decide_eq_decide,
      infix_map_change_iff, infix_map_change_iff] at hself
    exact hself.symm
  · intro h self
    rw [containsC, containsFolded, decide_eq_decide]
    exact (infix_map_iff_of_agree h).symm

example : containsC "Маникюр" "маникюр" = false := by decide

end Text
