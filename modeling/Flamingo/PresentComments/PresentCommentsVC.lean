import Flamingo.DBManager.Firestore
import Flamingo.Lib.EarlyReturn

set_option autoImplicit false

/-! # The comments

A comment is written by `FirebaseManager.saveCommentToFirebase`, and `PresentCommentsVC` reads the
collection when it is opened. Its loop returns at the first document without a date: the comments
after it are not listed, and the table stays hidden.
-/

namespace Flamingo

structure Comment where
  namePerson : String := ""
  rating : Int := 0
  commentBody : String := ""
  date : ℚ
  deriving DecidableEq, Repr

def saveCommentToFirebase (comment : Comment) : DocData :=
  [("namePerson", .string comment.namePerson),
    ("rating", .number comment.rating),
    ("date", Value.ofDate comment.date),
    ("commentBody", .string comment.commentBody)]

namespace PresentCommentsVC

/-- The comment that the loop makes of a document with the date `timeStump`. -/
def comment (data : DocData) (timeStump : ℚ) : Comment where
  namePerson := (data.string? "namePerson").getD ""
  rating := (data.int? "rating").getD 5
  date := timeStump
  commentBody := (data.string? "commentBody").getD ""

/-- The loop of the completion handler, and whether the table is shown after it. -/
def getAllComments (arrayComments : List Comment) : List Document → List Comment × Bool
  | [] => (arrayComments, true)
  | document :: documents =>
      match document.data.date? "date" with
      | none => (arrayComments, false)
      | some timeStump =>
          getAllComments (arrayComments ++ [comment document.data timeStump]) documents

/-- A document that the loop goes on after. -/
def dated (document : Document) : Bool := (document.data.date? "date").isSome

def comment? (document : Document) : Option Comment :=
  (document.data.date? "date").map (comment document.data)

/-- The loop collects the comments and returns early. -/
theorem getAllComments_eq_collect (arrayComments : List Comment) (documents : List Document) :
    getAllComments arrayComments documents
      = (arrayComments ++ (EarlyReturn.collect comment? documents).1,
          (EarlyReturn.collect comment? documents).2) := by
  induction documents generalizing arrayComments with
  | nil => rw [getAllComments, EarlyReturn.collect, List.append_nil]
  | cons document documents ih =>
      rw [getAllComments]
      cases hdate : document.data.date? "date" with
      | none =>
          have hcomment : comment? document = none := by rw [comment?, hdate, Option.map_none]
          rw [EarlyReturn.collect_cons_none hcomment, List.append_nil]
      | some timeStump =>
          have hcomment : comment? document = some (comment document.data timeStump) := by
            rw [comment?, hdate, Option.map_some]
          dsimp only
          rw [ih, EarlyReturn.collect_cons_some hcomment, List.append_assoc, List.singleton_append]

theorem isSome_comment? (document : Document) : (comment? document).isSome = dated document :=
  Option.isSome_map

/-- The loop lists the documents before the first one without a date. -/
theorem getAllComments_eq (arrayComments : List Comment) (documents : List Document) :
    getAllComments arrayComments documents
      = (arrayComments ++ (documents.takeWhile dated).filterMap comment?, documents.all dated) := by
  rw [getAllComments_eq_collect, EarlyReturn.collect_eq]
  simp only [isSome_comment?]

@[simp] theorem date?_saveCommentToFirebase (c : Comment) :
    (saveCommentToFirebase c).date? "date" = some (truncated c.date) := asDate_ofDate c.date

/-- What is read of a comment's document is the comment, with a date in microseconds. -/
theorem comment_saveCommentToFirebase (c : Comment) (date : ℚ) :
    comment (saveCommentToFirebase c) date = { c with date } := rfl

/-- **The comments come back** in their order, as they were written but for the end of a date's
fraction. -/
theorem getAllComments_published (arrayComments : List Comment)
    (published : List (String × Comment)) :
    getAllComments arrayComments (published.map (fun p => ⟨p.1, saveCommentToFirebase p.2⟩))
      = (arrayComments ++ published.map (fun p => { p.2 with date := truncated p.2.date }), true) := by
  induction published generalizing arrayComments with
  | nil => rw [List.map_nil, List.map_nil, getAllComments, List.append_nil]
  | cons p published ih =>
      rw [List.map_cons, getAllComments, date?_saveCommentToFirebase]
      dsimp only
      rw [comment_saveCommentToFirebase, ih, List.append_assoc, List.singleton_append,
        List.map_cons]

end PresentCommentsVC

end Flamingo
