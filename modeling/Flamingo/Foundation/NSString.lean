import Flamingo.Foundation.Text
import Flamingo.Lib.Utf16

set_option autoImplicit false

/-! # NSString and CharacterSet

What a text field's delegate does with the text: `NSString` counts in UTF-16 code units, so that a
range may cut a character, and a range beyond the end raises an exception. The set of the decimal
digits has those of all scripts; of the ASCII characters it has `0` to `9`.
-/

namespace Text

/-- The two counts of code units of an `NSRange`. -/
structure NSRange where
  location : Nat
  length : Nat
  deriving DecidableEq, Repr

/-- `(s as NSString).length` -/
def utf16Count (s : String) : Nat := (Utf16.encode s.toList).length

/-- `(s as NSString).replacingCharacters(in: range, with: string)`, `none` where it raises. -/
def replacingCharacters (s : String) (range : NSRange) (string : String) : Option String :=
  let units := Utf16.encode s.toList
  if range.location + range.length ≤ units.length then
    some (String.ofList (Utf16.decode (units.take range.location ++ Utf16.encode string.toList ++
      units.drop (range.location + range.length))))
  else none

/-- **An edit between two texts** replaces what is between them. -/
theorem replacingCharacters_append (p m q string : String) :
    replacingCharacters (p ++ m ++ q) ⟨utf16Count p, utf16Count m⟩ string
      = some (p ++ string ++ q) := by
  have hunits : Utf16.encode (p ++ m ++ q).toList
      = Utf16.encode p.toList ++ (Utf16.encode m.toList ++ Utf16.encode q.toList) := by
    rw [String.toList_append, String.toList_append, Utf16.encode_append, Utf16.encode_append,
      List.append_assoc]
  have hle : utf16Count p + utf16Count m ≤ (Utf16.encode (p ++ m ++ q).toList).length := by
    rw [hunits, List.length_append, List.length_append]
    unfold utf16Count
    omega
  have htake : (Utf16.encode (p ++ m ++ q).toList).take (utf16Count p) = Utf16.encode p.toList := by
    rw [hunits]
    exact List.take_left
  have hdrop : (Utf16.encode (p ++ m ++ q).toList).drop (utf16Count p + utf16Count m)
      = Utf16.encode q.toList := by
    rw [hunits, utf16Count, utf16Count, ← List.drop_drop, List.drop_left, List.drop_left]
  unfold replacingCharacters
  dsimp only
  rw [if_pos hle, htake, hdrop, ← Utf16.encode_append, ← Utf16.encode_append, Utf16.decode_encode,
    ← String.toList_append, ← String.toList_append, String.ofList_toList]

/-- `components(separatedBy:)` with a character set, then `joined()` -/
def joinedComponents (s : String) (separators : Char → Bool) : List Char :=
  (s.toList.splitOnP separators).flatten

/-- What is left is what is no separator. -/
theorem joinedComponents_eq (s : String) (separators : Char → Bool) :
    joinedComponents s separators = s.toList.filter (fun c => !separators c) := by
  unfold joinedComponents
  induction s.toList with
  | nil => rfl
  | cons c cs ih =>
      rw [List.splitOnP_cons_eq_if_modifyHead]
      cases hc : separators c with
      | true => simp [hc, ih]
      | false =>
          obtain ⟨l, ls, hls⟩ := List.exists_cons_of_ne_nil (List.splitOnP_ne_nil separators cs)
          rw [hls] at ih
          simp [hc, hls, ← ih]

/-- What `CharacterSet.decimalDigits` may be: a set of characters whose ASCII members are the digits
`0` to `9`. -/
structure DecimalDigits where
  contains : Char → Bool
  ascii : ∀ c : Char, c.toNat < 0x80 → contains c = c.isDigit

namespace DecimalDigits

/-- The ASCII digits alone. -/
def latin : DecimalDigits := ⟨Char.isDigit, fun _ _ => rfl⟩

/-- The decimal digits of a text in order. -/
def digits (u : DecimalDigits) (s : String) : List Char := s.toList.filter u.contains

variable (u : DecimalDigits)

theorem mem_digits {u : DecimalDigits} {s : String} {c : Char} (h : c ∈ u.digits s) :
    u.contains c = true := (List.mem_filter.mp h).2

theorem digits_append (s t : String) : u.digits (s ++ t) = u.digits s ++ u.digits t := by
  unfold digits
  rw [String.toList_append, List.filter_append]

/-- `s.components(separatedBy: CharacterSet.decimalDigits.inverted).joined()` -/
theorem joinedComponents_inverted (s : String) :
    joinedComponents s (fun c => !u.contains c) = u.digits s := by
  rw [joinedComponents_eq]
  simp only [Bool.not_not]
  rfl

end DecimalDigits

end Text
