import Mathlib.Tactic

set_option autoImplicit false

/-! # Texts with numbers at fixed places

A template is a list of fields, each of which stands for a number, and of characters that stand for
themselves. A number is written with at least as many digits as the field is wide, and read as far
as there are digits. If no two fields touch each other, what was written is read back, whatever the
widths were (`read_write`).
-/

universe u

namespace NumberTexts

/-! ## One number -/

/-- The digits of a number, with zeros in front of them up to the width. -/
def pad (width n : Nat) : List Char :=
  List.replicate (width - (Nat.toDigits 10 n).length) '0' ++ Nat.toDigits 10 n

theorem pad_ne_nil (width n : Nat) : pad width n ≠ [] := by
  intro h
  exact Nat.toDigits_ne_nil (List.append_eq_nil_iff.mp h).2

theorem isDigit_of_mem_pad {width n : Nat} {c : Char} (h : c ∈ pad width n) : c.isDigit = true := by
  rcases List.mem_append.mp h with h | h
  · rw [List.eq_of_mem_replicate h]
    decide
  · exact Nat.isDigit_of_mem_toDigits (by decide) (by decide) h

/-- The zeros in front do not change the value. -/
theorem ofDigitChars_pad (width n : Nat) : Nat.ofDigitChars 10 (pad width n) 0 = n := by
  rw [pad, Nat.ofDigitChars_append, Nat.ofDigitChars_replicate_zero, Nat.mul_zero,
    Nat.ofDigitChars_ten_toDigits]

/-- One digit at least is what a number is written with anyway. -/
theorem pad_one (n : Nat) : pad 1 n = Nat.toDigits 10 n := by
  have hpos : 0 < (Nat.toDigits 10 n).length := Nat.length_toDigits_pos
  have hzero : 1 - (Nat.toDigits 10 n).length = 0 := by omega
  rw [pad, hzero, List.replicate_zero, List.nil_append]

/-! ## Templates -/

inductive Item (F : Type u)
  | field (f : F)
  | literal (c : Char)

variable {F : Type u}

def write (width value : F → Nat) : List (Item F) → List Char
  | [] => []
  | .field f :: template => pad (width f) (value f) ++ write width value template
  | .literal c :: template => c :: write width value template

/-- The numbers of the fields, in the order of the template; the text has to be used up. -/
def read : List (Item F) → List Char → Option (List (F × Nat))
  | [], [] => some []
  | [], _ :: _ => none
  | .field f :: template, text =>
      let digits := text.takeWhile Char.isDigit
      if digits.isEmpty then none
      else (read template (text.dropWhile Char.isDigit)).map
        ((f, Nat.ofDigitChars 10 digits 0) :: ·)
  | .literal _ :: _, [] => none
  | .literal c :: template, c' :: text => if c = c' then read template text else none

/-- The text goes on with a character that is no digit, or ends. -/
def Stops : List Char → Prop
  | [] => True
  | c :: _ => c.isDigit = false

theorem takeWhile_stops {text : List Char} (h : Stops text) :
    text.takeWhile Char.isDigit = [] ∧ text.dropWhile Char.isDigit = text := by
  cases text with
  | nil => exact ⟨rfl, rfl⟩
  | cons c text =>
      have hc : ¬ c.isDigit = true := by
        rw [show c.isDigit = false from h]
        exact Bool.false_ne_true
      exact ⟨List.takeWhile_cons_of_neg hc, List.dropWhile_cons_of_neg hc⟩

/-- **A number is read** as far as its digits go. -/
theorem read_field (f : F) (template : List (Item F)) (width n : Nat) {rest : List Char}
    (h : Stops rest) :
    read (.field f :: template) (pad width n ++ rest) = (read template rest).map ((f, n) :: ·) := by
  obtain ⟨htake, hdrop⟩ := takeWhile_stops h
  have hdigits : ∀ c ∈ pad width n, c.isDigit = true := fun _ => isDigit_of_mem_pad
  have hne : (pad width n).isEmpty = false := List.isEmpty_eq_false_iff.mpr (pad_ne_nil width n)
  rw [read, List.takeWhile_append_of_pos hdigits, List.dropWhile_append_of_pos hdigits, htake, hdrop,
    List.append_nil, ofDigitChars_pad]
  simp only [hne, Bool.false_eq_true, if_false]

/-- A text without a digit is not read as a number. -/
theorem read_field_of_stops (f : F) (template : List (Item F)) {text : List Char} (h : Stops text) :
    read (.field f :: template) text = none := by
  rw [read, (takeWhile_stops h).1]
  rfl

theorem read_literal (c : Char) (template : List (Item F)) (text : List Char) :
    read (.literal c :: template) (c :: text) = read template text := by
  rw [read, if_pos rfl]

/-- A field stands before a character that is no digit, or at the end. -/
def Separable : List (Item F) → Prop
  | [] => True
  | .literal _ :: template => Separable template
  | .field _ :: [] => True
  | .field _ :: .field _ :: _ => False
  | .field _ :: .literal c :: template => c.isDigit = false ∧ Separable template

/-- The numbers of a template, under its fields. -/
def values (value : F → Nat) : List (Item F) → List (F × Nat)
  | [] => []
  | .field f :: template => (f, value f) :: values value template
  | .literal _ :: template => values value template

/-- **What is written is read**, with any widths, and the rest of the template reads the rest of the
text. -/
theorem read_write_append (width value : F → Nat) {template : List (Item F)}
    (h : Separable template) (after : List (Item F)) {text : List Char} (hstops : Stops text) :
    read (template ++ after) (write width value template ++ text)
      = (read after text).map (values value template ++ ·) := by
  induction template using Separable.induct with
  | case1 =>
      show read after text = (read after text).map (fun rest => rest)
      rw [Option.map_id']
  | case2 c template ih =>
      rw [write, List.cons_append, List.cons_append, read_literal, ih h]
      rfl
  | case3 f =>
      rw [write, write, List.append_nil, List.cons_append, read_field f _ _ _ hstops]
      rfl
  | case4 f g template => exact h.elim
  | case5 f c template ih =>
      obtain ⟨hc, htemplate⟩ := h
      have hnext : Stops (write width value (.literal c :: template) ++ text) := hc
      rw [write, List.cons_append, List.append_assoc, read_field f _ _ _ hnext, write,
        List.cons_append, List.cons_append, read_literal, ih htemplate, Option.map_map]
      rfl

/-- **What is written is read back.** -/
theorem read_write (width value : F → Nat) {template : List (Item F)} (h : Separable template) :
    read template (write width value template) = some (values value template) := by
  have hend : Stops [] := trivial
  have hread := read_write_append width value h [] hend
  rw [List.append_nil, List.append_nil] at hread
  rw [hread, read, Option.map_some, List.append_nil]

/-- A text with a field that does not begin with a digit is not read. -/
theorem read_eq_none (width value : F → Nat) (template : List (Item F)) (h : Separable template)
    (f : F) (after : List (Item F)) {text : List Char} (hstops : Stops text) :
    read (template ++ .field f :: after) (write width value template ++ text) = none := by
  rw [read_write_append width value h _ hstops, read_field_of_stops f after hstops, Option.map_none]

end NumberTexts
