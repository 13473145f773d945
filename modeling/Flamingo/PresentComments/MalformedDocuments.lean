import Flamingo.PresentComments.PresentCommentsVC
import Flamingo.PresentService.CelendarVC

set_option autoImplicit false

/-! # Malformed documents

`PresentCommentsVC` and `CelendarVC` read a list of documents with the same loop: it returns at the
first document without a timestamp, and with it the handler, before the screen has left its loading
state. The answers to the query of the calendar have a timestamp each, since it compares one; the
comments are read without a condition.
-/

namespace Flamingo

/-! ## The comments -/

namespace PresentCommentsVC

/-- The comments of all documents that have a date are listed, and the table is shown. -/
def AllShown (documents : List Document) : Prop :=
  getAllComments [] documents = (documents.filterMap comment?, true)

theorem allShown_iff (documents : List Document) :
    AllShown documents ↔ ∀ document ∈ documents, dated document := by
  rw [AllShown, getAllComments_eq_collect, List.nil_append]
  refine (EarlyReturn.collect_eq_filterMap_iff comment? documents).trans ?_
  simp only [isSome_comment?]

end PresentCommentsVC

/-! ## The times -/

namespace CelendarVC

/-- `data["dttmEntry"] as? Timestamp` -/
def time? (document : Document) : Option Int := document.data.timestamp? "dttmEntry"

theorem appendTimes_eq_collect (documents : List Document) :
    appendTimes documents = EarlyReturn.collect time? documents := by
  induction documents with
  | nil => rfl
  | cons document documents ih =>
      rw [appendTimes, ih]
      cases htime : time? document with
      | none =>
          rw [EarlyReturn.collect_cons_none htime, show document.data.timestamp? "dttmEntry" = none
            from htime]
      | some timeStump =>
          rw [EarlyReturn.collect_cons_some htime, show document.data.timestamp? "dttmEntry"
            = some timeStump from htime]

/-- The times of all documents that have one are blocked, the time table is shown, and the activity
indicator has stopped. -/
def AllBlocked (vc : CelendarVC) (documents : List Document) : Prop :=
  (∀ document ∈ documents, ∀ t ∈ time? document,
    t ∈ (vc.receiveTimes documents).1.arrayTimesBlock) ∧
  (vc.receiveTimes documents).1.tableViewTimeHidden = false ∧
  (vc.receiveTimes documents).1.activeIndTimeHidden = true

/-- **An answer without a malformed document** does everything. -/
theorem allBlocked_of_complete (vc : CelendarVC) {documents : List Document}
    (h : ∀ document ∈ documents, (time? document).isSome) : vc.AllBlocked documents := by
  have hcollect := (EarlyReturn.collect_eq_filterMap_iff time? documents).mpr h
  rw [AllBlocked, receiveTimes_eq, appendTimes_eq_collect, hcollect, if_pos rfl]
  refine ⟨?_, rfl, rfl⟩
  intro document hdocument t ht
  exact List.mem_append_right _ (List.mem_filterMap.mpr ⟨document, hdocument, ht⟩)

/-- **A malformed document** leaves the flags as they were, and blocks only the times before it. -/
theorem allBlocked_iff_of_incomplete (vc : CelendarVC) {documents : List Document}
    (h : ¬ ∀ document ∈ documents, (time? document).isSome) :
    vc.AllBlocked documents ↔ vc.tableViewTimeHidden = false ∧ vc.activeIndTimeHidden = true ∧
      ∀ document ∈ documents, ∀ t ∈ time? document, t ∈ vc.arrayTimesBlock ∨
        t ∈ (documents.takeWhile (fun d => (time? d).isSome)).filterMap time? := by
  have hincomplete : ¬ (appendTimes documents).2 = true := by
    rw [appendTimes_eq_collect, EarlyReturn.collect_snd_iff]
    exact h
  rw [AllBlocked, receiveTimes_eq, if_neg hincomplete]
  dsimp only
  rw [appendTimes_eq_collect, EarlyReturn.collect_eq]
  simp only [List.mem_append]
  exact ⟨fun ⟨ht, hhidden, hind⟩ => ⟨hhidden, hind, ht⟩, fun ⟨hhidden, hind, ht⟩ => ⟨ht, hhidden, hind⟩⟩

/-- **The answers to the query** have no malformed document. -/
theorem allBlocked_getDocuments (vc : CelendarVC) (date : Int) (content : List Document) :
    vc.AllBlocked ((vc.getTimesIsGreaterThan date).getDocuments content) := by
  refine allBlocked_of_complete vc ?_
  intro document hdocument
  obtain ⟨-, t, ht, -⟩ := mem_getDocuments_iff.mp hdocument
  exact Option.isSome_iff_exists.mpr ⟨t, ht⟩

end CelendarVC

/-! ## Both loaders -/

end Flamingo
