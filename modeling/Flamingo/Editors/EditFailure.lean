import Flamingo.Editors.Cloud

set_option autoImplicit false

/-! # Edits whose requests fail

An edit of a discont or of a service replaces its document: a new one is added and the old one is
deleted, each by a request of its own that settles at any time, with success or without. The editor
for disconts deletes first, uploads the image and looks after five seconds whether the URL of the
image has arrived; only then does it add. The editor for services adds and deletes when the URL has
arrived, without waiting for the one before the other. With the document goes its image, whose URL
`reference(forURL:)` must know: on another URL the process ends, and of the edit only the requests
are left that it has made.

Both versions are gone in the end exactly if the deletion succeeds and the addition is never made
or fails (`atomic_iff`).
-/

namespace Flamingo

inductive Editor
  | discont
  | service
  deriving DecidableEq, Repr

/-- The requests of an edit; each is issued at most once. -/
inductive Request
  | putData
  | downloadURL
  | addDocument
  | deleteDocument
  | deleteImage
  deriving DecidableEq, Repr

instance : Fintype Request where
  elems := {.putData, .downloadURL, .addDocument, .deleteDocument, .deleteImage}
  complete r := by cases r <;> decide

/-- An edit of a record: its document `old`, which is in the collection, and the document `new`
under a fresh id that is to replace it. -/
structure Edit where
  urls : DownloadURL
  editor : Editor
  collection : List Document
  old : Document
  new : Document
  image : Option ImageData
  old_mem : old ∈ collection
  new_fresh : ∀ d ∈ collection, d.documentID ≠ new.documentID

structure EditState where
  issued : Request → Bool
  settled : Request → Bool
  collection : List Document
  /-- `imageURL` of the new record is not empty -/
  imageURL : Bool
  /-- the timer has fired -/
  fired : Bool
  /-- the URL arrived before the timer fired -/
  inTime : Bool

inductive EditEvent
  | settle (r : Request)
  | timer

namespace Edit

/-- The new version of a discont. -/
def ofDiscont (urls : DownloadURL) (collection : List Document) (old : Document)
    (discont : Discont) (image : Option ImageData) (documentID : String) (old_mem : old ∈ collection)
    (new_fresh : ∀ d ∈ collection, d.documentID ≠ documentID) : Edit where
  urls := urls
  editor := .discont
  collection := collection
  old := old
  new := ⟨documentID, saveDiscontToFirebase { discont with
    id := "", imageURL := urls.downloadURL (AddNewDiscontVC.imagePath discont.name) }⟩
  image := image
  old_mem := old_mem
  new_fresh := new_fresh

/-- The new version of a service, whose start times are `appTime`; where `createDataEntry` has none,
the process ends and neither request is made. -/
def ofService (urls : DownloadURL) (collection : List Document) (old : Document)
    (serviceNew : Service) (appTime : List Int) (image : Option ImageData) (documentID : String)
    (old_mem : old ∈ collection) (new_fresh : ∀ d ∈ collection, d.documentID ≠ documentID) :
    Edit where
  urls := urls
  editor := .service
  collection := collection
  old := old
  new := ⟨documentID, saveServiceToFirebase { serviceNew with
    imageURL := urls.downloadURL (AddNewServiceVC.imagePath serviceNew.nameService) } appTime⟩
  image := image
  old_mem := old_mem
  new_fresh := new_fresh

/-- `imageURL` of the record that is edited -/
def imageURL (edit : Edit) : String := edit.old.data.text "imageURL"

/-- `reference(forURL:)` raises an exception in `deleteDocument`, after the request that deletes the
document. -/
def raises (edit : Edit) : Bool :=
  edit.imageURL != "" && (edit.urls.reference edit.imageURL).isNone

/-- The requests of `deleteDocument`. -/
def deleteDocument (edit : Edit) : List Request :=
  if edit.imageURL ≠ "" ∧ !edit.raises then [.deleteDocument, .deleteImage] else [.deleteDocument]

end Edit

/-! ## The requests -/

namespace EditState

def issue (s : EditState) (requests : List Request) : EditState :=
  { s with issued := fun r => s.issued r || requests.contains r }

/-- The save button of the editor, `saveDiscont` or `saveAction`. -/
def start (edit : Edit) : EditState :=
  let s : EditState := ⟨fun _ => false, fun _ => false, edit.collection, false, false, false⟩
  let upload := if edit.image.isSome then [Request.putData] else []
  match edit.editor with
  | .discont =>
      let s := s.issue edit.deleteDocument
      if edit.raises then s else s.issue upload
  | .service => s.issue upload

/-- The completion handler of a request that has succeeded. -/
def succeed (edit : Edit) (s : EditState) : Request → EditState
  | .putData => s.issue [.downloadURL]
  | .downloadURL =>
      let s := { s with imageURL := true, inTime := !s.fired }
      match edit.editor with
      | .discont => s
      | .service => (s.issue [.addDocument]).issue edit.deleteDocument
  | .addDocument => { s with collection := s.collection ++ [edit.new] }
  | .deleteDocument => { s with collection := deleteDoc s.collection edit.old.documentID }
  | .deleteImage => s

/-- A pending request settles; the handlers of failed requests only print. -/
def settle (edit : Edit) (outcome : Request → Bool) (s : EditState) (r : Request) :
    Option EditState :=
  if s.issued r && !s.settled r then
    let s := { s with settled := Function.update s.settled r true }
    some (if outcome r then s.succeed edit r else s)
  else none

/-- The timer of `saveDataToFireBase`. -/
def timer (edit : Edit) (s : EditState) : Option EditState :=
  match edit.editor with
  | .service => none
  | .discont =>
      if s.fired || edit.raises then none
      else
        let s := { s with fired := true }
        some (if s.imageURL then s.issue [.addDocument] else s)

def step (edit : Edit) (outcome : Request → Bool) (s : EditState) :
    EditEvent → Option EditState
  | .settle r => s.settle edit outcome r
  | .timer => s.timer edit

end EditState

/-- The edit, with the outcomes of its requests, settling in any order. -/
def editing (edit : Edit) (outcome : Request → Bool) : EventMachine EditState EditEvent where
  init s := s = EditState.start edit
  step := EditState.step edit outcome

namespace EditState

/-! ## The property and its condition -/

/-- No request is pending, and the timer has fired if there is one. -/
def Settled (edit : Edit) (s : EditState) : Prop :=
  (∀ r, s.issued r = true → s.settled r = true) ∧
    (edit.editor = .discont → edit.raises = false → s.fired = true)

/-- An image was chosen and every step succeeds, the URL in time. -/
def AllSucceed (edit : Edit) (outcome : Request → Bool) (s : EditState) : Prop :=
  edit.image.isSome = true ∧ (∀ r, outcome r = true) ∧
    (edit.editor = .discont → s.inTime = true)

/-- The old or the new version is there, and the new one alone if every step succeeds. -/
def Atomic (edit : Edit) (outcome : Request → Bool) (s : EditState) : Prop :=
  (edit.old ∈ s.collection ∨ edit.new ∈ s.collection) ∧
    (s.AllSucceed edit outcome → edit.old ∉ s.collection ∧ edit.new ∈ s.collection)

/-- For a discont, the deletion fails or everything else succeeds, the URL in time. For a service,
the addition does not fail when it is made and the deletion succeeds. -/
def Safe (edit : Edit) (outcome : Request → Bool) (s : EditState) : Prop :=
  match edit.editor with
  | .discont => outcome .deleteDocument = false ∨
      (edit.image.isSome = true ∧ outcome .putData = true ∧ outcome .downloadURL = true ∧
        s.inTime = true ∧ outcome .addDocument = true)
  | .service => edit.image.isSome = true → outcome .putData = true →
      outcome .downloadURL = true → outcome .deleteDocument = true → outcome .addDocument = true

/-! ## The invariant -/

def Succeeded (outcome : Request → Bool) (s : EditState) (r : Request) : Prop :=
  s.settled r = true ∧ outcome r = true

/-- The event that issues a request has happened. -/
def Triggered (edit : Edit) (outcome : Request → Bool) (s : EditState) : Request → Prop
  | .putData => edit.image.isSome = true ∧ (edit.editor = .discont → edit.raises = false)
  | .downloadURL => s.Succeeded outcome .putData
  | .addDocument => match edit.editor with
      | .discont => s.fired = true ∧ s.inTime = true
      | .service => s.Succeeded outcome .downloadURL
  | .deleteDocument => match edit.editor with
      | .discont => True
      | .service => s.Succeeded outcome .downloadURL
  | .deleteImage => (edit.imageURL ≠ "" ∧ edit.raises = false) ∧
      match edit.editor with
      | .discont => True
      | .service => s.Succeeded outcome .downloadURL

/-- The collection when the deletion, or the addition, has succeeded. -/
def left (edit : Edit) (deleted added : Bool) : List Document :=
  (if deleted then deleteDoc edit.collection edit.old.documentID else edit.collection) ++
    if added then [edit.new] else []

structure EditInv (edit : Edit) (outcome : Request → Bool) (s : EditState) : Prop where
  issued : ∀ r, s.issued r = true ↔ s.Triggered edit outcome r
  settled : ∀ r, s.settled r = true → s.issued r = true
  imageURL : s.imageURL = true ↔ s.Succeeded outcome .downloadURL
  inTime : s.inTime = true → s.imageURL = true
  notFired : s.fired = false → s.imageURL = true → s.inTime = true
  collection : s.collection =
    left edit (s.settled .deleteDocument && outcome .deleteDocument)
      (s.settled .addDocument && outcome .addDocument)

variable {edit : Edit} {outcome : Request → Bool}

theorem new_notMem (edit : Edit) : edit.new ∉ edit.collection :=
  fun h => edit.new_fresh edit.new h rfl

theorem old_ne_new (edit : Edit) : edit.old.documentID ≠ edit.new.documentID :=
  edit.new_fresh edit.old edit.old_mem

theorem old_mem_left {deleted added : Bool} :
    edit.old ∈ left edit deleted added ↔ deleted = false := by
  have hne : edit.old ≠ edit.new := fun h => old_ne_new edit (congrArg _ h)
  cases deleted <;> cases added <;> simp [left, mem_deleteDoc, edit.old_mem, hne]

theorem new_mem_left {deleted added : Bool} :
    edit.new ∈ left edit deleted added ↔ added = true := by
  have hnew := new_notMem edit
  cases deleted <;> cases added <;> simp [left, mem_deleteDoc, hnew]

theorem deleteDoc_left (added : Bool) :
    deleteDoc (left edit false added) edit.old.documentID = left edit true added := by
  have hne := (old_ne_new edit).symm
  cases added <;> simp [left, deleteDoc, hne]

theorem left_append (deleted : Bool) :
    left edit deleted false ++ [edit.new] = left edit deleted true := by
  simp [left]

namespace EditInv

variable {s : EditState}

theorem old (hi : EditInv edit outcome s) :
    edit.old ∈ s.collection ↔ ¬ s.Succeeded outcome .deleteDocument := by
  rw [hi.collection, old_mem_left, ← Bool.not_eq_true, Bool.and_eq_true, Succeeded]

theorem new (hi : EditInv edit outcome s) :
    edit.new ∈ s.collection ↔ s.Succeeded outcome .addDocument := by
  rw [hi.collection, new_mem_left, Bool.and_eq_true, Succeeded]

end EditInv

@[simp] theorem mem_deleteDocument {r : Request} :
    r ∈ edit.deleteDocument ↔
      r = .deleteDocument ∨ (r = .deleteImage ∧ edit.imageURL ≠ "" ∧ edit.raises = false) := by
  unfold Edit.deleteDocument
  split_ifs with h
  · simp_all
  · simp_all

@[simp] theorem issued_issue {s : EditState} {requests : List Request} {r : Request} :
    (s.issue requests).issued r = true ↔ s.issued r = true ∨ r ∈ requests := by
  simp [issue]

/-- Issuing a request changes nothing else. -/
@[simp] theorem issue_frame (s : EditState) (requests : List Request) :
    (s.issue requests).settled = s.settled ∧ (s.issue requests).collection = s.collection ∧
      (s.issue requests).imageURL = s.imageURL ∧ (s.issue requests).fired = s.fired ∧
      (s.issue requests).inTime = s.inTime :=
  ⟨rfl, rfl, rfl, rfl, rfl⟩

theorem succeeded_settled {s : EditState} {r r' : Request} :
    Succeeded outcome { s with settled := Function.update s.settled r true } r' ↔
      s.Succeeded outcome r' ∨ (r' = r ∧ outcome r = true) := by
  by_cases hr : r' = r
  · subst hr
    simp only [Succeeded, Function.update_self, true_and]
    constructor
    · exact Or.inr
    · rintro (⟨-, hok⟩ | hok) <;> exact hok
  · simp [Succeeded, hr]

/-- Only the requests that the button issues are pending at first. -/
theorem editInv_start : EditInv edit outcome (start edit) := by
  have hfields : (start edit).collection = edit.collection ∧ (start edit).imageURL = false ∧
      (start edit).fired = false ∧ (start edit).inTime = false ∧
      ∀ r, (start edit).settled r = false := by
    unfold start
    cases edit.editor with
    | discont => cases edit.raises <;> exact ⟨rfl, rfl, rfl, rfl, fun _ => rfl⟩
    | service => exact ⟨rfl, rfl, rfl, rfl, fun _ => rfl⟩
  obtain ⟨hcollection, hurl, hfired, hinTime, hsettled⟩ := hfields
  have hnone : ∀ r, ¬ (start edit).Succeeded outcome r := by
    intro r h
    simpa [hsettled] using h.1
  refine ⟨?_, ?_, ?_, ?_, ?_, ?_⟩
  · intro r
    cases hedit : edit.editor <;> cases himage : edit.image <;> cases hraises : edit.raises <;>
      cases r <;> simp [Triggered, Succeeded, hedit, himage, hraises, start]
  · intro r h
    simp [hsettled] at h
  · simp [hurl, hnone]
  · simp [hinTime]
  · simp [hurl]
  · simp [hcollection, hsettled, left]

/-! ## The steps -/

/-- What is issued when a request settles with success. -/
def triggers (edit : Edit) : Request → List Request
  | .putData => [.downloadURL]
  | .downloadURL => match edit.editor with
      | .discont => []
      | .service => .addDocument :: edit.deleteDocument
  | .addDocument | .deleteDocument | .deleteImage => []

/-- A request that settles with success triggers these requests and no others. -/
theorem triggered_settled {s s' : EditState} {r : Request}
    (hi : EditInv edit outcome s) (hfresh : s.settled r = false)
    (hsucceeded : ∀ r', s'.Succeeded outcome r' ↔ s.Succeeded outcome r' ∨ r' = r)
    (hfired : s'.fired = s.fired)
    (hinTime : s'.inTime = if r = .downloadURL then !s.fired else s.inTime) (r' : Request) :
    s'.Triggered edit outcome r' ↔ s.Triggered edit outcome r' ∨ r' ∈ triggers edit r := by
  have hlate : r = .downloadURL → s.inTime = false := by
    rintro rfl
    have hnot : ¬ s.Succeeded outcome .downloadURL := by simp [Succeeded, hfresh]
    cases h : s.inTime with
    | false => rfl
    | true => exact absurd (hi.imageURL.mp (hi.inTime h)) hnot
  cases hedit : edit.editor <;> cases r' <;> cases r <;>
    simp_all [Triggered, triggers]

theorem issued_succeed (edit : Edit) (t : EditState) (r r' : Request) :
    (t.succeed edit r).issued r' = true ↔ t.issued r' = true ∨ r' ∈ triggers edit r := by
  cases r <;> cases hedit : edit.editor <;> simp [succeed, triggers, hedit, or_assoc]

/-- What a handler changes besides the requests it issues. -/
theorem succeed_frame (edit : Edit) (t : EditState) (r : Request) :
    (t.succeed edit r).settled = t.settled ∧ (t.succeed edit r).fired = t.fired ∧
      (t.succeed edit r).inTime = (if r = .downloadURL then !t.fired else t.inTime) ∧
      (t.succeed edit r).imageURL = (if r = .downloadURL then true else t.imageURL) ∧
      (t.succeed edit r).collection = match r with
        | .addDocument => t.collection ++ [edit.new]
        | .deleteDocument => deleteDoc t.collection edit.old.documentID
        | .putData | .downloadURL | .deleteImage => t.collection := by
  cases r <;> cases hedit : edit.editor <;> simp [succeed, hedit]

/-- A failed request settles, and nothing else happens. -/
theorem editInv_fail {s : EditState} {r : Request} (hi : EditInv edit outcome s)
    (hissued : s.issued r = true) (hfail : outcome r = false) :
    EditInv edit outcome { s with settled := Function.update s.settled r true } := by
  have hsame : ∀ r', Succeeded outcome
      { s with settled := Function.update s.settled r true } r' ↔ s.Succeeded outcome r' := by
    intro r'
    rw [succeeded_settled, hfail]
    simp
  refine ⟨?_, ?_, ?_, hi.inTime, hi.notFired, ?_⟩
  · intro r'
    have htriggered : Triggered edit outcome
        { s with settled := Function.update s.settled r true } r'
          ↔ s.Triggered edit outcome r' := by
      cases r' <;> cases hedit : edit.editor <;> simp only [Triggered, hsame, hedit]
    rw [htriggered]
    exact hi.issued r'
  · intro r' hr'
    by_cases hr : r' = r
    · exact hr ▸ hissued
    · simp only [Function.update_of_ne hr] at hr'
      exact hi.settled r' hr'
  · rw [hsame]
    exact hi.imageURL
  · have hcount : ∀ r', (Function.update s.settled r true r' && outcome r')
        = (s.settled r' && outcome r') := by
      intro r'
      by_cases hr : r' = r
      · simp [hr, hfail]
      · rw [Function.update_of_ne hr]
    rw [hcount, hcount]
    exact hi.collection

/-- The handler of a request that has succeeded. -/
theorem editInv_succeed {s : EditState} {r : Request} (hi : EditInv edit outcome s)
    (hissued : s.issued r = true) (hfresh : s.settled r = false) (hok : outcome r = true) :
    EditInv edit outcome
      (EditState.succeed edit { s with settled := Function.update s.settled r true } r) := by
  obtain ⟨hsettled, hfired, hinTime, hurl, hcollection⟩ :=
    succeed_frame edit { s with settled := Function.update s.settled r true } r
  have hissue := issued_succeed edit
    { s with settled := Function.update s.settled r true } r
  generalize EditState.succeed edit { s with settled := Function.update s.settled r true } r = s'
    at hsettled hfired hinTime hurl hcollection hissue
  have hsucceeded : ∀ r', s'.Succeeded outcome r' ↔ s.Succeeded outcome r' ∨ r' = r := by
    intro r'
    have h : Succeeded outcome { s with settled := Function.update s.settled r true } r' ↔
        s.Succeeded outcome r' ∨ (r' = r ∧ outcome r = true) := succeeded_settled
    simp only [Succeeded, hsettled, hok, and_true] at h ⊢
    exact h
  refine ⟨?_, ?_, ?_, ?_, ?_, ?_⟩
  · intro r'
    rw [hissue, triggered_settled hi hfresh hsucceeded hfired hinTime, hi.issued]
  · intro r' hr'
    rw [hissue]
    rw [hsettled] at hr'
    by_cases hr : r' = r
    · exact Or.inl (hr ▸ hissued)
    · simp only [Function.update_of_ne hr] at hr'
      exact Or.inl (hi.settled r' hr')
  · rw [hurl, hsucceeded]
    by_cases hr : r = .downloadURL
    · simp [hr]
    · simp only [if_neg hr, hi.imageURL, Ne.symm hr, or_false]
  · rw [hurl, hinTime]
    split_ifs
    · simp
    · exact hi.inTime
  · rw [hurl, hinTime, hfired]
    split_ifs
    · simp
    · exact hi.notFired
  · rw [hcollection, hsettled]
    dsimp only
    rw [hi.collection]
    cases r with
    | addDocument =>
        simp only [hfresh, Bool.false_and, left_append, Function.update_self, hok, Bool.and_self,
          ne_eq, reduceCtorEq, not_false_eq_true, Function.update_of_ne]
    | deleteDocument =>
        simp only [hfresh, Bool.false_and, deleteDoc_left, Function.update_self, hok,
          Bool.and_self, ne_eq, reduceCtorEq, not_false_eq_true, Function.update_of_ne]
    | putData | downloadURL | deleteImage => simp [Function.update_of_ne]

/-- The timer adds if the URL has arrived. -/
theorem editInv_timer {s s' : EditState} (hi : EditInv edit outcome s)
    (h : s.timer edit = some s') : EditInv edit outcome s' := by
  unfold timer at h
  cases hedit : edit.editor with
  | service => simp [hedit] at h
  | discont =>
      simp only [hedit] at h
      split_ifs at h with hfired hurl
      all_goals simp only [Bool.or_eq_true, not_or, Bool.not_eq_true] at hfired
      · -- the URL is there, so it has arrived in time
        have hinTime := hi.notFired hfired.1 hurl
        obtain rfl := Option.some.inj h
        refine ⟨?_, ?_, hi.imageURL, hi.inTime, fun _ _ => hinTime, hi.collection⟩
        · intro r
          have hissued := hi.issued r
          rw [issued_issue]
          cases r <;> simp_all [Triggered, Succeeded, issue]
        · intro r hr
          exact issued_issue.mpr (Or.inl (hi.settled r hr))
      · -- it is not there, and will be late: nothing is ever added
        have hinTime : s.inTime = false := by
          cases hin : s.inTime with
          | false => rfl
          | true => exact absurd (hi.inTime hin) hurl
        obtain rfl := Option.some.inj h
        refine ⟨?_, hi.settled, hi.imageURL, hi.inTime,
          fun _ hurl' => absurd hurl' hurl, hi.collection⟩
        intro r
        have hissued := hi.issued r
        cases r <;> simp_all [Triggered, Succeeded]

theorem editInv_step {s s' : EditState} {e : EditEvent} (hi : EditInv edit outcome s)
    (h : s.step edit outcome e = some s') : EditInv edit outcome s' := by
  cases e with
  | settle r =>
      simp only [step, settle] at h
      split_ifs at h with hpending hok
      · simp only [Bool.and_eq_true, Bool.not_eq_true'] at hpending
        obtain rfl := Option.some.inj h
        exact editInv_succeed hi hpending.1 hpending.2 hok
      · simp only [Bool.and_eq_true, Bool.not_eq_true'] at hpending
        obtain rfl := Option.some.inj h
        exact editInv_fail hi hpending.1 (by simpa using hok)
  | timer => exact editInv_timer hi h

/-! ## When everything has settled -/

/-- Of a settled edit a request has succeeded exactly if it was triggered and its outcome is
success. -/
theorem succeeded_iff {s : EditState} (hi : EditInv edit outcome s) (hs : s.Settled edit)
    (r : Request) :
    s.Succeeded outcome r ↔ s.Triggered edit outcome r ∧ outcome r = true := by
  rw [Succeeded, ← hi.issued]
  exact ⟨fun h => ⟨hi.settled r h.1, h.2⟩, fun h => ⟨hs.1 r h.1, h.2⟩⟩

/-- **The versions that are left** when everything has settled. -/
theorem versions_of_settled {s : EditState} (hi : EditInv edit outcome s) (hs : s.Settled edit) :
    match edit.editor with
    | .discont =>
        (edit.old ∈ s.collection ↔ outcome .deleteDocument = false) ∧
        (edit.new ∈ s.collection ↔ edit.image.isSome = true ∧ outcome .putData = true ∧
          outcome .downloadURL = true ∧ s.inTime = true ∧ outcome .addDocument = true)
    | .service =>
        (edit.old ∉ s.collection ↔ edit.image.isSome = true ∧ outcome .putData = true ∧
          outcome .downloadURL = true ∧ outcome .deleteDocument = true) ∧
        (edit.new ∈ s.collection ↔ edit.image.isSome = true ∧ outcome .putData = true ∧
          outcome .downloadURL = true ∧ outcome .addDocument = true) := by
  have hput := succeeded_iff hi hs .putData
  have hurl := succeeded_iff hi hs .downloadURL
  have hadd := succeeded_iff hi hs .addDocument
  have hdelete := succeeded_iff hi hs .deleteDocument
  have harrived := hi.inTime
  rw [hi.imageURL] at harrived
  cases hedit : edit.editor with
  | discont =>
      have hfired := hs.2 hedit
      simp only [Triggered, hedit, true_and, forall_const] at hput hurl hadd hdelete
      refine ⟨?_, ?_⟩
      · rw [hi.old, hdelete, Bool.not_eq_true]
      · rw [hi.new, hadd]
        rw [hurl, hput] at harrived
        constructor
        · rintro ⟨⟨-, hin⟩, hok⟩
          obtain ⟨⟨⟨himage, -⟩, hputOk⟩, hurlOk⟩ := harrived hin
          exact ⟨himage, hputOk, hurlOk, hin, hok⟩
        · rintro ⟨-, -, -, hin, hok⟩
          -- the URL has arrived, so the button did not raise an exception
          obtain ⟨⟨⟨-, hraises⟩, -⟩, -⟩ := harrived hin
          exact ⟨⟨hfired hraises, hin⟩, hok⟩
  | service =>
      simp only [Triggered, hedit, reduceCtorEq, false_implies, and_true]
        at hput hurl hadd hdelete
      refine ⟨?_, ?_⟩
      · rw [hi.old, not_not, hdelete, hurl, hput, and_assoc, and_assoc]
      · rw [hi.new, hadd, hurl, hput, and_assoc, and_assoc]

theorem atomic_iff_safe {s : EditState} (hi : EditInv edit outcome s) (hs : s.Settled edit) :
    s.Atomic edit outcome ↔ s.Safe edit outcome := by
  have hleft := versions_of_settled hi hs
  unfold Atomic AllSucceed Safe
  cases hedit : edit.editor with
  | discont =>
      simp only [hedit] at hleft
      obtain ⟨hold, hnew⟩ := hleft
      rw [hold, hnew, Bool.not_eq_false]
      refine ⟨And.left, ?_⟩
      intro hsafe
      refine ⟨hsafe, ?_⟩
      rintro ⟨himage, hall, hin⟩
      exact ⟨hall _, himage, hall _, hall _, hin rfl, hall _⟩
  | service =>
      simp only [hedit] at hleft
      obtain ⟨hold, hnew⟩ := hleft
      have hold' := not_congr hold
      rw [not_not] at hold'
      rw [hold', hnew, not_not]
      constructor
      · rintro ⟨hkept | hkept, -⟩ himage hput hurl hdelete
        · exact absurd ⟨himage, hput, hurl, hdelete⟩ hkept
        · exact hkept.2.2.2
      · intro hsafe
        refine ⟨?_, ?_⟩
        · by_cases hdeleted : edit.image.isSome = true ∧ outcome .putData = true ∧
              outcome .downloadURL = true ∧ outcome .deleteDocument = true
          · obtain ⟨himage, hput, hurl, hdelete⟩ := hdeleted
            exact Or.inr ⟨himage, hput, hurl, hsafe himage hput hurl hdelete⟩
          · exact Or.inl hdeleted
        · rintro ⟨himage, hall, -⟩
          exact ⟨⟨himage, hall _, hall _, hall _⟩, himage, hall _, hall _, hall _⟩

theorem collection_of_allSucceed {s : EditState} (hi : EditInv edit outcome s)
    (hs : s.Settled edit) (hall : s.AllSucceed edit outcome) : s.collection = left edit true true := by
  obtain ⟨himage, hok, hin⟩ := hall
  have hversions := versions_of_settled hi hs
  have hdeleted : edit.old ∉ s.collection := by
    cases hedit : edit.editor with
    | discont =>
        simp only [hedit] at hversions
        simp [hversions.1, hok]
    | service =>
        simp only [hedit] at hversions
        exact hversions.1.mpr ⟨himage, hok _, hok _, hok _⟩
  have hadded : edit.new ∈ s.collection := by
    cases hedit : edit.editor with
    | discont =>
        simp only [hedit] at hversions
        exact hversions.2.mpr ⟨himage, hok _, hok _, hin hedit, hok _⟩
    | service =>
        simp only [hedit] at hversions
        exact hversions.2.mpr ⟨himage, hok _, hok _, hok _⟩
  rw [hi.old, not_not] at hdeleted
  rw [hi.new] at hadded
  rw [hi.collection, hdeleted.1, hdeleted.2, hadded.1, hadded.2]
  rfl

end EditState

/-! ## The runs of an edit -/

theorem editInv_of_reachable {edit : Edit} {outcome : Request → Bool} {s : EditState}
    (h : (editing edit outcome).Reachable s) : EditState.EditInv edit outcome s := by
  refine h.invariant (EditState.EditInv edit outcome) ?_ ?_
  · rintro s rfl
    exact EditState.editInv_start
  · intro s e s' hi _ hstep
    exact EditState.editInv_step hi hstep

/-- The document of a discont that is edited. -/
def storedDiscont : Document :=
  ⟨"old", saveDiscontToFirebase
    { name := "spring", imageURL := schemeURL.downloadURL (AddNewDiscontVC.imagePath "spring") }⟩

/-- It is edited under a new name and with a new image. -/
def springEdit : Edit :=
  Edit.ofDiscont schemeURL [storedDiscont] storedDiscont { name := "summer" } (some [1]) "new"
    (by simp) (by simp [storedDiscont])

instance (edit : Edit) (s : EditState) : Decidable (s.Settled edit) :=
  inferInstanceAs (Decidable ((∀ r, s.issued r = true → s.settled r = true) ∧
    (edit.editor = .discont → edit.raises = false → s.fired = true)))

theorem reachable_of_springEdit {outcome : Request → Bool} {s : EditState}
    {events : List EditEvent}
    (h : (editing springEdit outcome).exec (EditState.start springEdit) events = some s) :
    (editing springEdit outcome).Reachable s :=
  EventMachine.reachable_of_exec events rfl h

namespace CloudState

variable {urls : DownloadURL}

def documents (s : CloudState urls) (collection : Collection) : List Document :=
  (s.docs collection).map (·.document)

@[simp] theorem documents_putData (s : CloudState urls) (path : String) (uploadData : ImageData)
    (collection : Collection) :
    (s.putData path uploadData).documents collection = s.documents collection := rfl

@[simp] theorem documents_add (s : CloudState urls) (collection : Collection) (d : Stored urls) :
    (s.add collection d).documents collection = s.documents collection ++ [d.document] := by
  simp [documents, add]

theorem documents_deleteDocument {s s' : CloudState urls} {id imageURL child : String}
    {collection : Collection} (h : s.deleteDocument id imageURL collection child = some s') :
    s'.documents collection = deleteDoc (s.documents collection) id := by
  have hdocs : s'.docs = s.without collection id := by
    unfold deleteDocument deleteImageOfFireBaseStorage at h
    split_ifs at h with himage
    · obtain ⟨path, -, rfl⟩ := Option.map_eq_some_iff.mp h
      rfl
    · obtain rfl := Option.some.inj h
      rfl
  simp only [documents, hdocs, without, Function.update_self, deleteDoc, List.filter_map]
  rfl

end CloudState

theorem AddNewDiscontVC.documents_saveDiscont {urls : DownloadURL} {s s' : CloudState urls}
    {discontUpdate discont : Discont} {uploadData : ImageData} {documentID : String}
    (hid : discontUpdate.id ≠ "")
    (h : saveDiscont s discontUpdate discont (some uploadData) documentID = some s') :
    s'.documents .disconts = deleteDoc (s.documents .disconts) discontUpdate.id ++
      [⟨documentID, saveDiscontToFirebase
        { discont with id := "", imageURL := urls.downloadURL (imagePath discont.name) }⟩] := by
  have hurl : (urls.downloadURL (imagePath discont.name)).isEmpty = false := by
    simpa using urls.downloadURL_ne_empty _
  have hedited : (!discontUpdate.id.isEmpty) = true := by simpa using hid
  rw [saveDiscont, if_pos hedited] at h
  obtain ⟨s₁, hdelete, rfl⟩ := Option.map_eq_some_iff.mp h
  simp only [saveDataToFireBase, hurl, Bool.false_eq_true, if_false, CloudState.documents_add,
    CloudState.documents_putData, CloudState.documents_deleteDocument hdelete]

theorem AddNewServiceVC.documents_saveAction {urls : DownloadURL} {now : Int}
    {s s' : CloudState urls} {serviceUpdate serviceNew : Service} {appTime : List Int}
    {uploadData : ImageData} {documentID : String} (hid : serviceUpdate.id ≠ "")
    (hne : documentID ≠ serviceUpdate.id)
    (htimes : createDataEntry now serviceNew.timeService = some appTime)
    (h : saveAction now s serviceUpdate serviceNew (some uploadData) documentID = some s') :
    s'.documents .services = deleteDoc (s.documents .services) serviceUpdate.id ++
      [⟨documentID, saveServiceToFirebase { serviceNew with
        imageURL := urls.downloadURL (imagePath serviceNew.nameService) } appTime⟩] := by
  have hurl := urls.downloadURL_ne_empty (imagePath serviceNew.nameService)
  have hedited : (!serviceUpdate.id.isEmpty) = true := by simpa using hid
  simp only [saveAction, if_neg hurl, htimes, Option.bind_eq_bind, Option.bind_some, hedited,
    if_true] at h
  rw [CloudState.documents_deleteDocument h, CloudState.documents_add]
  simp [deleteDoc, hne]

/-- **An edit of a discont whose steps succeed** has done what `saveDiscont` does. -/
theorem collection_saveDiscont {urls : DownloadURL} {cloud cloud' : CloudState urls}
    {discontUpdate discont : Discont} {uploadData : ImageData} {documentID : String}
    {old : Document} {old_mem : old ∈ cloud.documents .disconts}
    {new_fresh : ∀ d ∈ cloud.documents .disconts, d.documentID ≠ documentID}
    {edit : Edit} {outcome : Request → Bool} {s : EditState}
    (hedit : edit = Edit.ofDiscont urls (cloud.documents .disconts) old discont (some uploadData)
      documentID old_mem new_fresh)
    (hold : old.documentID = discontUpdate.id) (hid : discontUpdate.id ≠ "")
    (hsave : AddNewDiscontVC.saveDiscont cloud discontUpdate discont (some uploadData) documentID
      = some cloud')
    (h : (editing edit outcome).Reachable s) (hs : s.Settled edit)
    (hall : s.AllSucceed edit outcome) : s.collection = cloud'.documents .disconts := by
  rw [EditState.collection_of_allSucceed (editInv_of_reachable h) hs hall,
    AddNewDiscontVC.documents_saveDiscont hid hsave, hedit, ← hold]
  rfl

/-- **An edit of a service whose steps succeed** has done what `saveAction` does. -/
theorem collection_saveAction {urls : DownloadURL} {now : Int} {cloud cloud' : CloudState urls}
    {serviceUpdate serviceNew : Service} {appTime : List Int} {uploadData : ImageData}
    {documentID : String} {old : Document} {old_mem : old ∈ cloud.documents .services}
    {new_fresh : ∀ d ∈ cloud.documents .services, d.documentID ≠ documentID}
    {edit : Edit} {outcome : Request → Bool} {s : EditState}
    (hedit : edit = Edit.ofService urls (cloud.documents .services) old serviceNew appTime
      (some uploadData) documentID old_mem new_fresh)
    (hold : old.documentID = serviceUpdate.id) (hid : serviceUpdate.id ≠ "")
    (htimes : createDataEntry now serviceNew.timeService = some appTime)
    (hsave : AddNewServiceVC.saveAction now cloud serviceUpdate serviceNew (some uploadData)
      documentID = some cloud')
    (h : (editing edit outcome).Reachable s) (hs : s.Settled edit)
    (hall : s.AllSucceed edit outcome) : s.collection = cloud'.documents .services := by
  have hne : documentID ≠ serviceUpdate.id := by
    rw [← hold]
    exact (new_fresh old old_mem).symm
  rw [EditState.collection_of_allSucceed (editInv_of_reachable h) hs hall,
    AddNewServiceVC.documents_saveAction hid hne htimes hsave, hedit, ← hold]
  rfl

end Flamingo
