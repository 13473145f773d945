import Flamingo.DBManager.StorageManager
import Flamingo.DBManager.ModelDataBase
import Flamingo.PresentComments.PresentCommentsVC

set_option autoImplicit false

/-! # Writing a comment

`HomeVC` opens the screen for a user with an account. The five buttons of `AddNewCommentVC` set the
rating and are filled up to it; what is sent is the rating, the text and the name of the first
account.
-/

namespace Flamingo

/-- `realm.objects(Person.self).first` -/
def firstPerson (persons : Table Person) : Option Person := persons.objects.head?.map Prod.snd

/-- The five buttons: `true` for the image `star.fill`, `false` for `star`. -/
abbrev Stars := List Bool

structure AddNewCommentVC where
  comment : Comment
  rating : Int
  stars : Stars
  textVeiwComment : String
  deriving DecidableEq, Repr

namespace AddNewCommentVC

/-- The screen as the storyboard has it; a new comment has the date of now. -/
def opened (now : ℚ) : AddNewCommentVC where
  comment := { date := now }
  rating := 0
  stars := [false, false, false, false, false]
  textVeiwComment := ""

/-- The action of the buttons, by their tag. -/
def actionReting (s : AddNewCommentVC) (tag : Int) : AddNewCommentVC :=
  match tag with
  | 1 => { s with stars := [true, false, false, false, false], rating := 1 }
  | 2 => { s with stars := [true, true, false, false, false], rating := 2 }
  | 3 => { s with stars := [true, true, true, false, false], rating := 3 }
  | 4 => { s with stars := [true, true, true, true, false], rating := 4 }
  | 5 => { s with stars := [true, true, true, true, true], rating := 5 }
  | _ => s

def commentCollect (s : AddNewCommentVC) (persons : Table Person) (now : ℚ) : AddNewCommentVC :=
  match firstPerson persons with
  | none => s
  | some person => { s with
      comment :=
        { namePerson := person.name
          rating := s.rating
          date := now
          commentBody := s.textVeiwComment } }

/-- The screen after the press, and the message of the alert or the document that is sent. -/
def actionSendComment (s : AddNewCommentVC) (persons : Table Person) (now : ℚ) :
    AddNewCommentVC × Except String DocData :=
  if ¬ s.rating > 0 then (s, .error "Поставьте рейтинг")
  else if s.textVeiwComment = "" then (s, .error "Заполните поле комментария")
  else
    let s := s.commentCollect persons now
    (s, .ok (saveCommentToFirebase s.comment))

end AddNewCommentVC

/-- `HomeVC.actionNewComment`: the screen, or the message of the alert. -/
def actionNewComment (persons : Table Person) (now : ℚ) : Except String AddNewCommentVC :=
  if persons.objects.length > 0 then .ok (AddNewCommentVC.opened now)
  else .error "Чтобы оставлять отзывы вам необходимо зарегистрироваться"

/-! ## The stars of a row -/

namespace PresentCommentsVC

/-- The stars that `cellForRowAt` gives a row, by the rating of its comment. -/
def starsOf (rating : Int) : Stars :=
  match rating with
  | 1 => [true, false, false, false, false]
  | 2 => [true, true, false, false, false]
  | 3 => [true, true, true, false, false]
  | 4 => [true, true, true, true, false]
  | 5 => [true, true, true, true, true]
  | _ => [true, true, true, true, true]

/-- A row of the table; the label of the date shows a text of its second. -/
structure Row where
  namePerson : String
  commentBody : String
  date : Int
  stars : Stars
  deriving DecidableEq, Repr

def cellForRowAt (comment : Comment) : Row where
  namePerson := comment.namePerson
  commentBody := comment.commentBody
  date := ⌊comment.date⌋
  stars := starsOf comment.rating

end PresentCommentsVC

namespace AddNewCommentVC

/-- Before the first press nothing is filled, and then the stars are those of the rating. -/
structure Shows (s : AddNewCommentVC) : Prop where
  range : 0 ≤ s.rating ∧ s.rating ≤ 5
  stars : s.stars = if s.rating = 0 then [false, false, false, false, false]
    else PresentCommentsVC.starsOf s.rating

theorem shows_opened (now : ℚ) : (opened now).Shows := ⟨⟨Int.le_refl 0, by show (0 : Int) ≤ 5; decide⟩, rfl⟩

theorem shows_actionReting {s : AddNewCommentVC} (h : s.Shows) (tag : Int) :
    (s.actionReting tag).Shows := by
  have hpressed : ∀ rating : Int, 1 ≤ rating → rating ≤ 5 →
      ({ s with stars := PresentCommentsVC.starsOf rating, rating } : AddNewCommentVC).Shows := by
    intro rating hlow hhigh
    refine ⟨⟨by show 0 ≤ rating; omega, hhigh⟩, ?_⟩
    have hne : rating ≠ 0 := by omega
    show _ = if rating = 0 then _ else _
    rw [if_neg hne]
  unfold actionReting
  split
  · exact hpressed 1 (by decide) (by decide)
  · exact hpressed 2 (by decide) (by decide)
  · exact hpressed 3 (by decide) (by decide)
  · exact hpressed 4 (by decide) (by decide)
  · exact hpressed 5 (by decide) (by decide)
  · exact h

/-- What a row of the comment shows is what the screen showed at the press. -/
def atPress (s : AddNewCommentVC) (person : Person) (now : ℚ) : PresentCommentsVC.Row where
  namePerson := person.name
  commentBody := s.textVeiwComment
  date := ⌊now⌋
  stars := s.stars

/-- **A press of the button** sends what is on the screen, with a rating from 1 to 5 and a text. -/
theorem sent_of_actionSendComment {s s' : AddNewCommentVC} {persons : Table Person} {person : Person}
    {now : ℚ} {data : DocData} (hs : s.Shows) (hperson : firstPerson persons = some person)
    (h : s.actionSendComment persons now = (s', .ok data)) :
    s'.Shows ∧ ∃ comment : Comment, data = saveCommentToFirebase comment ∧
      (1 ≤ comment.rating ∧ comment.rating ≤ 5) ∧ comment.commentBody ≠ "" ∧
      PresentCommentsVC.cellForRowAt comment = s.atPress person now := by
  unfold actionSendComment at h
  split_ifs at h with hrating htext
  · cases (Prod.mk.inj h).2
  · obtain ⟨rfl, hdata⟩ := Prod.mk.inj h
    obtain rfl := Except.ok.inj hdata
    have hcollect : s.commentCollect persons now = { s with
        comment :=
          { namePerson := person.name
            rating := s.rating
            date := now
            commentBody := s.textVeiwComment } } := by
      rw [commentCollect, hperson]
    rw [hcollect]
    refine ⟨⟨hs.range, hs.stars⟩, _, rfl, ⟨hrating, hs.range.2⟩, htext, ?_⟩
    have hne : s.rating ≠ 0 := by omega
    have hstars := hs.stars
    rw [if_neg hne] at hstars
    rw [PresentCommentsVC.cellForRowAt, atPress, hstars]
  · cases (Prod.mk.inj h).2

end AddNewCommentVC

end Flamingo
