import Mathlib.Tactic

set_option autoImplicit false

/-! # UTF-16

A text as the code units of its characters: one unit for a character below `0x10000`, a high and a
low surrogate for the others. Any list of units is read as a text again; a surrogate that is not
part of a pair is read as the replacement character.
-/

namespace Utf16

/-- The code units of a character. -/
def encodeChar (c : Char) : List Nat :=
  if c.toNat < 0x10000 then [c.toNat]
  else [0xD800 + (c.toNat - 0x10000) / 0x400, 0xDC00 + (c.toNat - 0x10000) % 0x400]

/-- The code units of a text. -/
def encode (s : List Char) : List Nat := s.flatMap encodeChar

def isHigh (u : Nat) : Bool := decide (0xD800 ≤ u) && decide (u < 0xDC00)

def isLow (u : Nat) : Bool := decide (0xDC00 ≤ u) && decide (u < 0xE000)

/-- The character of a unit that is not part of a pair. -/
def single (u : Nat) : Char := if isHigh u || isLow u then Char.ofNat 0xFFFD else Char.ofNat u

/-- The text of a list of code units. -/
def decode : List Nat → List Char
  | [] => []
  | [u] => [single u]
  | u :: v :: rest =>
      if isHigh u && isLow v then
        Char.ofNat (0x10000 + (u - 0xD800) * 0x400 + (v - 0xDC00)) :: decode rest
      else single u :: decode (v :: rest)

theorem encode_cons (c : Char) (s : List Char) : encode (c :: s) = encodeChar c ++ encode s := rfl

theorem encode_append (s t : List Char) : encode (s ++ t) = encode s ++ encode t :=
  List.flatMap_append

/-! ## The round trip -/

/-- No character is a surrogate. -/
theorem toNat_lt_or_gt (c : Char) :
    c.toNat < 0xD800 ∨ (0xDFFF < c.toNat ∧ c.toNat < 0x110000) := c.valid

theorem isHigh_toNat (c : Char) : isHigh c.toNat = false := by
  rcases toNat_lt_or_gt c with h | ⟨h, -⟩
  · simp [isHigh]
    omega
  · simp [isHigh]
    omega

theorem isLow_toNat (c : Char) : isLow c.toNat = false := by
  rcases toNat_lt_or_gt c with h | ⟨h, -⟩
  · simp [isLow]
    omega
  · simp [isLow]
    omega

theorem single_toNat (c : Char) : single c.toNat = c := by
  rw [single, isHigh_toNat, isLow_toNat, Bool.or_self, if_neg Bool.false_ne_true, Char.ofNat_toNat]

theorem decode_cons_of_not_high {u : Nat} (hu : isHigh u = false) (rest : List Nat) :
    decode (u :: rest) = single u :: decode rest := by
  cases rest with
  | nil => rfl
  | cons v rest => rw [decode, hu, Bool.false_and, if_neg Bool.false_ne_true]

/-- **One character**, followed by anything, is read back. -/
theorem decode_encodeChar_append (c : Char) (rest : List Nat) :
    decode (encodeChar c ++ rest) = c :: decode rest := by
  unfold encodeChar
  split_ifs with h
  · rw [List.singleton_append, decode_cons_of_not_high (isHigh_toNat c), single_toNat]
  · have hc : 0x10000 ≤ c.toNat ∧ c.toNat < 0x110000 := by
      rcases toNat_lt_or_gt c with hlt | ⟨-, hlt⟩
      · omega
      · exact ⟨by omega, hlt⟩
    have hhigh : isHigh (0xD800 + (c.toNat - 0x10000) / 0x400) = true := by
      simp [isHigh]
      omega
    have hlow : isLow (0xDC00 + (c.toNat - 0x10000) % 0x400) = true := by
      simp [isLow]
      omega
    have hpair : 0x10000 + (0xD800 + (c.toNat - 0x10000) / 0x400 - 0xD800) * 0x400
        + (0xDC00 + (c.toNat - 0x10000) % 0x400 - 0xDC00) = c.toNat := by
      omega
    rw [List.cons_append, List.singleton_append, decode, hhigh, hlow, Bool.and_self, if_pos rfl,
      hpair, Char.ofNat_toNat]

/-- **The round trip.** -/
theorem decode_encode (s : List Char) : decode (encode s) = s := by
  induction s with
  | nil => rfl
  | cons c s ih => rw [encode_cons, decode_encodeChar_append, ih]

end Utf16
