import Flamingo.Foundation.NSString
import Flamingo.Lib.Machine
import Flamingo.Lib.Mask
import Flamingo.PresentService.MakeAppointmentVC
import Flamingo.RegistrationPage.RegistrationVC

set_option autoImplicit false

/-! # The field of the phone number

The registration and the appointment screen format the number with the same code. Their delegate
never lets the text field make an edit: it makes the edit itself, keeps the decimal digits of the
result and fills them into a mask. So the text of the field is a function of the digits in it, and
an edit does to the digits what it does to the text.
-/

namespace Flamingo

open Text (DecimalDigits NSRange utf16Count replacingCharacters joinedComponents)

namespace PhoneField

def mask : String := "+X (XXX) XXX-XXXX"

/-- One round of the loop over the mask: the result, and the number from `index` on. -/
def round (state : List Char × List Char) (ch : Char) : List Char × List Char :=
  match state with
  | (result, []) => (result, [])
  | (result, digit :: rest) =>
      if ch = 'X' then (result ++ [digit], rest) else (result ++ [ch], digit :: rest)

def formattedNumber (u : DecimalDigits) (number : String) : String :=
  let cleanPhoneNumber := joinedComponents number (fun c => !u.contains c)
  String.ofList (mask.toList.foldl round ([], cleanPhoneNumber)).1

/-- `textField(shouldChangeCharactersIn:replacementString:)`: the text of the field afterwards. -/
def shouldChangeCharactersIn (u : DecimalDigits) (text : String) (range : NSRange)
    (string : String) : Option String :=
  (replacingCharacters text range string).map (fun newString => formattedNumber u newString)

/-- The edits of a field that starts empty or with a formatted number. -/
def edits (formattedNumber : String → String)
    (shouldChangeCharactersIn : String → NSRange → String → Option String) :
    EventMachine String (NSRange × String) where
  init text := text = "" ∨ ∃ number, text = formattedNumber number
  step text e := shouldChangeCharactersIn text e.1 e.2

end PhoneField

namespace RegistrationVC

def formattedNumber (u : DecimalDigits) : String → String := PhoneField.formattedNumber u

def shouldChangeCharactersIn (u : DecimalDigits) : String → NSRange → String → Option String :=
  PhoneField.shouldChangeCharactersIn u

def phoneField (u : DecimalDigits) : EventMachine String (NSRange × String) :=
  PhoneField.edits (formattedNumber u) (shouldChangeCharactersIn u)

end RegistrationVC

namespace MakeAppointmentVC

def formattedNumber (u : DecimalDigits) : String → String := PhoneField.formattedNumber u

def shouldChangeCharactersIn (u : DecimalDigits) : String → NSRange → String → Option String :=
  PhoneField.shouldChangeCharactersIn u

def phoneField (u : DecimalDigits) : EventMachine String (NSRange × String) :=
  PhoneField.edits (formattedNumber u) (shouldChangeCharactersIn u)

end MakeAppointmentVC

namespace PhoneField

/-! ## The loop fills the mask -/

theorem foldl_round (m : List Char) (result ds : List Char) :
    (m.foldl round (result, ds)).1 = result ++ Mask.fill 'X' m ds := by
  induction m generalizing result ds with
  | nil => simp
  | cons ch m ih =>
      rw [List.foldl_cons]
      cases ds with
      | nil =>
          show (m.foldl round (result, [])).1 = _
          rw [ih, Mask.fill_nil_right, Mask.fill_nil_right]
      | cons digit rest =>
          by_cases hch : ch = 'X'
          · subst hch
            show (m.foldl round (result ++ [digit], rest)).1 = _
            rw [ih, Mask.fill_hole, List.append_assoc, List.singleton_append]
          · have hround : round (result, digit :: rest) ch = (result ++ [ch], digit :: rest) :=
              if_neg hch
            rw [hround, ih, Mask.fill_literal hch, List.append_assoc, List.singleton_append]

/-- The mask filled with digits. -/
def filled (ds : List Char) : String := String.ofList (Mask.fill 'X' mask.toList ds)

variable (u : DecimalDigits)

/-- **Formatting** fills the mask with the decimal digits. -/
theorem formattedNumber_eq (number : String) :
    formattedNumber u number = filled (u.digits number) := by
  unfold formattedNumber
  dsimp only
  rw [foldl_round, List.nil_append, DecimalDigits.joinedComponents_inverted]
  rfl

theorem endsInHole_mask : Mask.EndsInHole 'X' mask.toList := by
  intro m hm
  have hlast : mask.toList.getLast? = some 'X' := by decide
  rw [hlast] at hm
  exact (Option.some.inj hm).symm

theorem count_mask : mask.toList.count 'X' = 11 := by decide

theorem length_mask : mask.toList.length = 17 := by decide

/-- The literals of the mask are ASCII characters and no digits. -/
theorem contains_literal : ∀ m ∈ mask.toList, m ≠ 'X' → u.contains m = false := by
  have hascii : mask.toList.all (fun m => decide (m.toNat < 0x80) && !m.isDigit) = true := by rfl
  intro m hm _
  have hliteral := List.all_eq_true.mp hascii m hm
  rw [Bool.and_eq_true, decide_eq_true_eq, Bool.not_eq_true'] at hliteral
  rw [u.ascii m hliteral.1, hliteral.2]

/-! ## Formatted numbers as keys -/

/-- The digits of a filled mask are the first eleven. -/
theorem digits_filled {ds : List Char} (hds : ∀ d ∈ ds, u.contains d) :
    u.digits (filled ds) = ds.take 11 := by
  unfold DecimalDigits.digits filled
  rw [String.toList_ofList, Mask.filter_fill u.contains (contains_literal u) hds, count_mask]

theorem digits_formattedNumber (s : String) :
    u.digits (formattedNumber u s) = (u.digits s).take 11 := by
  rw [formattedNumber_eq, digits_filled u (fun d hd => DecimalDigits.mem_digits hd)]

/-- **A formatted number** is its own format. -/
theorem formattedNumber_formattedNumber (s : String) :
    formattedNumber u (formattedNumber u s) = formattedNumber u s := by
  have hfill := Mask.fill_filter_fill (contains_literal u) endsInHole_mask
    (fun d hd => DecimalDigits.mem_digits (u := u) (s := s) hd)
  rw [formattedNumber_eq u (formattedNumber u s), formattedNumber_eq, DecimalDigits.digits, filled,
    filled, String.toList_ofList, hfill]

/-- The digits beyond the eleventh leave no trace. -/
theorem filled_take (ds : List Char) : filled (ds.take 11) = filled ds := by
  rw [← count_mask, filled, Mask.fill_take endsInHole_mask]
  rfl

theorem length_filled_eq_iff (ds : List Char) : (filled ds).length = 17 ↔ 11 ≤ ds.length := by
  rw [filled, String.length_ofList, ← length_mask, Mask.length_fill_eq_iff endsInHole_mask,
    count_mask]

theorem length_formattedNumber_eq_iff (s : String) :
    (formattedNumber u s).length = 17 ↔ 11 ≤ (u.digits s).length := by
  rw [formattedNumber_eq, length_filled_eq_iff]

theorem formattedNumber_eq_iff (s t : String) :
    formattedNumber u s = formattedNumber u t ↔ (u.digits s).take 11 = (u.digits t).take 11 := by
  rw [formattedNumber_eq, formattedNumber_eq, filled, filled, String.ofList_inj, ← count_mask]
  exact Mask.fill_eq_fill_iff (contains_literal u) endsInHole_mask
    (fun d hd => DecimalDigits.mem_digits hd) (fun d hd => DecimalDigits.mem_digits hd)

end PhoneField

/-- What is asked of the format of a number by which accounts are found. -/
structure FaithfulKey (u : DecimalDigits) (formattedNumber : String → String) : Prop where
  digits : ∀ s, u.digits (formattedNumber s) = (u.digits s).take 11
  idempotent : ∀ s, formattedNumber (formattedNumber s) = formattedNumber s
  full : ∀ s, (formattedNumber s).length = 17 ↔ 11 ≤ (u.digits s).length
  eq_iff : ∀ s t, formattedNumber s = formattedNumber t ↔
    (u.digits s).take 11 = (u.digits t).take 11
  /-- whatever accounts there are, the same ones are found -/
  lookup : ∀ s t, (∀ users : List Document,
      (RegistrationVC.usersWithNumber (formattedNumber s)).getDocuments users
        = (RegistrationVC.usersWithNumber (formattedNumber t)).getDocuments users) ↔
    (u.digits s).take 11 = (u.digits t).take 11

namespace RegistrationVC

/-- Two numbers find the same users only if they are equal. -/
theorem usersWithNumber_inj {number number' : String} :
    (∀ users : List Document, (usersWithNumber number).getDocuments users
      = (usersWithNumber number').getDocuments users) ↔ number = number' := by
  constructor
  · intro h
    -- a collection whose only user has the first number
    let d : Document := ⟨"", [("numberPhone", .string number)]⟩
    have hfound : d ∈ (usersWithNumber number).getDocuments [d] :=
      mem_usersWithNumber.mpr ⟨List.mem_singleton_self d, rfl⟩
    rw [h [d]] at hfound
    exact Option.some.inj (mem_usersWithNumber.mp hfound).2
  · rintro rfl users
    rfl

theorem checks_iff_length (text : String) : checks text = true ↔ text.length = 17 := by
  have hempty : text.length = 17 → text ≠ "" := by
    rintro hlength rfl
    cases hlength
  simp only [checks, checkName, checkCountNumber, Bool.and_eq_true, bne_iff_ne, ne_eq]
  constructor
  · rintro ⟨hne, hcount⟩
    rw [if_pos hne] at hcount
    exact beq_iff_eq.mp hcount
  · intro hlength
    refine ⟨hempty hlength, ?_⟩
    rw [if_pos (hempty hlength)]
    exact beq_iff_eq.mpr hlength

/-- **The check of the count** of a formatted number asks for eleven digits. -/
theorem checks_iff (u : DecimalDigits) (s : String) :
    checks (formattedNumber u s) = true ↔ 11 ≤ (u.digits s).length :=
  (checks_iff_length _).trans (PhoneField.length_formattedNumber_eq_iff u s)

end RegistrationVC

/-- The same of the check of the appointment screen. -/
theorem MakeAppointmentVC.checkPhoneClient_iff (u : DecimalDigits) (vc : MakeAppointmentVC)
    (s : String) :
    { vc with phoneClient := MakeAppointmentVC.formattedNumber u s }.checkPhoneClient = true ↔
      11 ≤ (u.digits s).length := by
  rw [← PhoneField.length_formattedNumber_eq_iff]
  show (!((PhoneField.formattedNumber u s).isEmpty ||
    (PhoneField.formattedNumber u s).length != 17)) = true ↔ _
  generalize PhoneField.formattedNumber u s = text
  have hempty : text.length = 17 → text.isEmpty = false := by
    intro hlength
    rw [String.isEmpty_eq_false_iff]
    rintro rfl
    cases hlength
  constructor
  · intro h
    rw [Bool.not_eq_true', Bool.or_eq_false_iff] at h
    exact bne_eq_false_iff_eq.mp h.2
  · intro hlength
    rw [hempty hlength, Bool.false_or, Bool.not_eq_true', bne_eq_false_iff_eq]
    exact hlength

theorem PhoneField.faithfulKey (u : DecimalDigits) : FaithfulKey u (PhoneField.formattedNumber u) where
  digits := digits_formattedNumber u
  idempotent := formattedNumber_formattedNumber u
  full := length_formattedNumber_eq_iff u
  eq_iff := formattedNumber_eq_iff u
  lookup s t := by rw [RegistrationVC.usersWithNumber_inj, formattedNumber_eq_iff]

/-- **Phone normalisation is a faithful key**, on both screens, and the checks of both ask for a full
one. -/
theorem formattedNumber_faithful (u : DecimalDigits) :
    FaithfulKey u (RegistrationVC.formattedNumber u) ∧
      FaithfulKey u (MakeAppointmentVC.formattedNumber u) ∧
      (∀ s, RegistrationVC.checks (RegistrationVC.formattedNumber u s) = true ↔
        11 ≤ (u.digits s).length) ∧
      ∀ (vc : MakeAppointmentVC) (s : String),
        { vc with phoneClient := MakeAppointmentVC.formattedNumber u s }.checkPhoneClient = true ↔
          11 ≤ (u.digits s).length :=
  ⟨PhoneField.faithfulKey u, PhoneField.faithfulKey u, RegistrationVC.checks_iff u,
    MakeAppointmentVC.checkPhoneClient_iff u⟩

/-! ## Edits -/

/-- What the edits of a field may do, if they act on the digits alone. -/
structure ActsOnDigits (u : DecimalDigits) (formattedNumber : String → String)
    (field : EventMachine String (NSRange × String)) : Prop where
  formatted : ∀ text, field.Reachable text → formattedNumber text = text
  /-- the last character is a digit and no literal of the mask -/
  last : ∀ text, field.Reachable text → ∀ c ∈ text.toList.getLast?, u.contains c = true
  count : ∀ text, field.Reachable text → (u.digits text).length ≤ 11
  edit : ∀ p m q r, field.Reachable (p ++ m ++ q) →
    ∃ text, field.step (p ++ m ++ q) (⟨utf16Count p, utf16Count m⟩, r) = some text ∧
      u.digits text = (u.digits p ++ u.digits r ++ u.digits q).take 11
  delete : ∀ p c, field.Reachable (p ++ String.singleton c) →
    ∃ text, field.step (p ++ String.singleton c)
        (⟨utf16Count p, utf16Count (String.singleton c)⟩, "") = some text ∧
      u.digits (p ++ String.singleton c) = u.digits text ++ [c]

namespace PhoneField

variable (u : DecimalDigits)

theorem reachable_formatted {text : String}
    (h : (edits (formattedNumber u) (shouldChangeCharactersIn u)).Reachable text) :
    ∃ number, text = formattedNumber u number := by
  refine h.invariant (fun text => ∃ number, text = formattedNumber u number) ?_ ?_
  · rintro text (rfl | hnumber)
    · exact ⟨"", by rw [formattedNumber_eq]; rfl⟩
    · exact hnumber
  · rintro text e text' - - hstep
    obtain ⟨newString, -, rfl⟩ := Option.map_eq_some_iff.mp hstep
    exact ⟨newString, rfl⟩

/-- The last character of a formatted number is one of its digits. -/
theorem contains_getLast? (number : String) {c : Char}
    (h : (formattedNumber u number).toList.getLast? = some c) : u.contains c = true := by
  rw [formattedNumber_eq, filled, String.toList_ofList] at h
  exact DecimalDigits.mem_digits (Mask.getLast?_fill endsInHole_mask h)

/-- An edit replaces what is in its range. -/
theorem step_append (p m q r : String) :
    (edits (formattedNumber u) (shouldChangeCharactersIn u)).step (p ++ m ++ q)
        (⟨utf16Count p, utf16Count m⟩, r) = some (formattedNumber u (p ++ r ++ q)) := by
  show shouldChangeCharactersIn u (p ++ m ++ q) ⟨utf16Count p, utf16Count m⟩ r = _
  rw [shouldChangeCharactersIn, Text.replacingCharacters_append, Option.map_some]

/-- **An edit** does to the digits what it does to the text. -/
theorem digits_edit (p r q : String) :
    u.digits (formattedNumber u (p ++ r ++ q))
      = (u.digits p ++ u.digits r ++ u.digits q).take 11 := by
  rw [digits_formattedNumber, DecimalDigits.digits_append, DecimalDigits.digits_append]

theorem actsOnDigits :
    ActsOnDigits u (formattedNumber u) (edits (formattedNumber u) (shouldChangeCharactersIn u)) where
  formatted text h := by
    obtain ⟨number, rfl⟩ := reachable_formatted u h
    exact formattedNumber_formattedNumber u number
  last text h c hc := by
    obtain ⟨number, rfl⟩ := reachable_formatted u h
    exact contains_getLast? u number hc
  count text h := by
    obtain ⟨number, rfl⟩ := reachable_formatted u h
    rw [digits_formattedNumber]
    exact List.length_take_le 11 _
  edit p m q r _ := ⟨_, step_append u p m q r, digits_edit u p r q⟩
  delete p c h := by
    obtain ⟨number, htext⟩ := reachable_formatted u h
    have hlast : (formattedNumber u number).toList.getLast? = some c := by
      rw [← htext, String.toList_append, String.toList_singleton]
      exact List.getLast?_concat
    have hc : u.contains c = true := contains_getLast? u number hlast
    have hdigits : u.digits (p ++ String.singleton c) = u.digits p ++ [c] := by
      rw [DecimalDigits.digits_append]
      simp [DecimalDigits.digits, hc]
    -- the text has at most eleven digits, so those before the last one all fit
    have hcount : (u.digits p).length < 11 := by
      have hle : (u.digits (p ++ String.singleton c)).length ≤ 11 := by
        rw [htext, digits_formattedNumber]
        exact List.length_take_le 11 _
      rw [hdigits, List.length_append, List.length_singleton] at hle
      omega
    have hstep := step_append u p (String.singleton c) "" ""
    rw [String.append_empty, String.append_empty, String.append_empty] at hstep
    refine ⟨_, hstep, ?_⟩
    rw [digits_formattedNumber, List.take_of_length_le hcount.le, hdigits]

end PhoneField

/-- **Phone editing acts on digits only**, on both screens. -/
theorem phone_edits_act_on_digits (u : DecimalDigits) :
    ActsOnDigits u (RegistrationVC.formattedNumber u) (RegistrationVC.phoneField u) ∧
      ActsOnDigits u (MakeAppointmentVC.formattedNumber u) (MakeAppointmentVC.phoneField u) :=
  ⟨PhoneField.actsOnDigits u, PhoneField.actsOnDigits u⟩

-- a number is typed and pasted, and its last digit is deleted
example : (RegistrationVC.phoneField DecimalDigits.latin).exec ""
    [(⟨0, 0⟩, "8"), (⟨2, 0⟩, "(925) 123"), (⟨11, 1⟩, "")] = some "+8 (925) 12" := by decide

end Flamingo
