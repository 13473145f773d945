import Flamingo.Lib.Prefixes
import Flamingo.Lib.Trap
import Flamingo.Editors.Forms

set_option autoImplicit false

/-! # The attempts to save a discont

A press on the save button of `AddNewDiscontVC` disables the button, and the timer enables it again
if no URL of an image has arrived after five seconds. The upload of the first attempt goes on, so its
URL may arrive during the second attempt. Every attempt that fails gives the alert another cancel
action, and an alert raises an exception on the second one. The callbacks force the screen, which is
gone once it has been closed.

So a session has two attempts at most, and it adds one discont at most, with the texts of its last
press and the image of one of its presses (`discont_attempts`).
-/

namespace Flamingo

/-- The screen with its requests and timers. -/
structure DiscontScreen where
  discont : Discont := {}
  discontUpdate : Discont
  isUserInteractionEnabled : Bool := true
  /-- the paths of the uploads under way -/
  uploads : List String := []
  /-- the timers of five seconds -/
  timers : Nat := 0
  /-- the timers of one second -/
  closings : Nat := 0
  /-- the cancel actions of `actionSheet` -/
  cancels : Nat := 0
  closed : Bool := false
  /-- the requests to delete the old document -/
  deleted : Nat := 0
  /-- the disconts that `saveDiscontToFirebase` has been called with -/
  sent : List Discont := []
  deriving DecidableEq

inductive DiscontEvent
  /-- a press on the save button, with what the controls hold -/
  | saveDiscont (controls : AddNewDiscontVC)
  | uploaded (path : String)
  | uploadFailed (path : String)
  | timer
  | close
  /-- the user leaves the screen -/
  | leave

namespace DiscontScreen

/-! ## The handlers -/

variable (urls : DownloadURL)

/-- The discont with the texts of the controls. -/
def collect (s : DiscontScreen) (controls : AddNewDiscontVC) : Discont :=
  ({ controls with discont := s.discont } : AddNewDiscontVC).collectDiscont.discont

/-- The URL of the old image is not one of Firebase Storage. -/
def Undeletable (discontUpdate : Discont) : Prop :=
  discontUpdate.id ≠ "" ∧ discontUpdate.imageURL ≠ "" ∧
    urls.reference discontUpdate.imageURL = none

def deleteDocument (s : DiscontScreen) : Option DiscontScreen :=
  let s := { s with deleted := s.deleted + 1 }
  if s.discontUpdate.imageURL ≠ "" then
    (urls.reference s.discontUpdate.imageURL).map (fun _ => s)
  else some s

def saveDataToFireBase (s : DiscontScreen) (controls : AddNewDiscontVC) : DiscontScreen :=
  let upload := if controls.image.isSome then
    [AddNewDiscontVC.imagePath controls.nameDiscont] else []
  { s with
    uploads := s.uploads ++ upload
    discont := s.collect controls
    timers := s.timers + 1 }

def saveDiscont (s : DiscontScreen) (controls : AddNewDiscontVC) : Option DiscontScreen :=
  let s := { s with isUserInteractionEnabled := false }
  if !s.discontUpdate.id.isEmpty then
    (s.deleteDocument urls).map (fun s => s.saveDataToFireBase controls)
  else some (s.saveDataToFireBase controls)

/-- The alert of a failed attempt gets a cancel action; a second one raises an exception. -/
def addAction (s : DiscontScreen) : Option DiscontScreen :=
  if s.cancels = 0 then some { s with cancels := 1 } else none

/-- The timer of `saveDataToFireBase`. -/
def timer (s : DiscontScreen) : Option DiscontScreen :=
  if s.closed then none
  else
    let s := { s with timers := s.timers - 1 }
    if s.discont.imageURL.isEmpty then { s with isUserInteractionEnabled := true }.addAction
    else some { s with sent := s.sent ++ [s.discont], closings := s.closings + 1 }

def enabled (s : DiscontScreen) : DiscontEvent → Bool
  | .saveDiscont _ => !s.closed && s.isUserInteractionEnabled
  | .uploaded path => s.uploads.contains path
  | .uploadFailed path => s.uploads.contains path
  | .timer => 0 < s.timers
  | .close => 0 < s.closings
  | .leave => !s.closed

/-- `none` for a trap. The handler of a failed upload only prints. -/
def step (s : DiscontScreen) : DiscontEvent → Option DiscontScreen
  | .saveDiscont controls => s.saveDiscont urls controls
  | .uploaded path =>
      if s.closed then none
      else some { s with
        uploads := s.uploads.erase path
        discont := { s.discont with imageURL := urls.downloadURL path } }
  | .uploadFailed path => some { s with uploads := s.uploads.erase path }
  | .timer => s.timer
  | .close =>
      if s.closed then none else some { s with closings := s.closings - 1, closed := true }
  | .leave => some { s with closed := true }

end DiscontScreen

/-- A session of the editor, for a new discont or for one that is edited. -/
def discontScreens (urls : DownloadURL) : EventMachine (Process DiscontScreen) DiscontEvent :=
  Process.machine (fun s => ∃ discontUpdate, s = { discontUpdate })
    DiscontScreen.enabled (DiscontScreen.step urls)

namespace DiscontEvent

def press? : DiscontEvent → Option AddNewDiscontVC
  | saveDiscont controls => some controls
  | _ => none

/-- What the controls held at the presses. -/
def presses (es : List DiscontEvent) : List AddNewDiscontVC := es.filterMap press?

/-- The screen has been closed. -/
def Closed (es : List DiscontEvent) : Prop := ∃ e ∈ es, e = close ∨ e = leave

theorem Closed.append {es : List DiscontEvent} (h : Closed es) (e : DiscontEvent) :
    Closed (es ++ [e]) := by
  obtain ⟨e', he', hclose⟩ := h
  exact ⟨e', List.mem_append_left _ he', hclose⟩

theorem presses_append_of_none {es : List DiscontEvent} {e : DiscontEvent} (h : e.press? = none) :
    presses (es ++ [e]) = presses es := by
  simp [presses, h]

end DiscontEvent

namespace DiscontScreen

open DiscontEvent

variable {urls : DownloadURL}

/-! ## What a session has done -/

/-- The texts of one press with the image of another. -/
def published (urls : DownloadURL) (texts image : AddNewDiscontVC) : Discont :=
  { ({ texts with discont := {} } : AddNewDiscontVC).collectDiscont.discont with
    imageURL := urls.downloadURL (AddNewDiscontVC.imagePath image.nameDiscont) }

/-- A path that a press has uploaded an image to. -/
def UploadedBy (controls : List AddNewDiscontVC) (path : String) : Prop :=
  ∃ u ∈ controls, u.image.isSome ∧ path = AddNewDiscontVC.imagePath u.nameDiscont

/-- The screen after the presses: either the button is enabled, or a timer is running, or the
discont has been sent; and every press is that of the running timer or has been answered. -/
structure Attempted (urls : DownloadURL) (discontUpdate : Discont)
    (controls : List AddNewDiscontVC) (s : DiscontScreen) : Prop where
  update : s.discontUpdate = discontUpdate
  phase : s.isUserInteractionEnabled.toNat + s.timers + s.sent.length = 1
  count : controls.length = s.timers + s.cancels + s.sent.length
  cancels : s.cancels ≤ 1
  deleted : s.deleted = if discontUpdate.id = "" then 0 else controls.length
  uploads : ∀ path ∈ s.uploads, UploadedBy controls path
  imageURL : s.discont.imageURL = "" ∨
    ∃ path, UploadedBy controls path ∧ s.discont.imageURL = urls.downloadURL path
  image : s.discont.image = none
  texts : ∀ c ∈ controls.getLast?,
    s.discont = { published urls c c with imageURL := s.discont.imageURL }
  sent : s.sent = [] ∨ ∃ c ∈ controls.getLast?, ∃ u ∈ controls, u.image.isSome ∧
    s.sent = [published urls c u]

theorem Attempted.length_le {discontUpdate : Discont} {controls : List AddNewDiscontVC}
    {s : DiscontScreen} (hi : Attempted urls discontUpdate controls s) : controls.length ≤ 2 := by
  have hphase := hi.phase
  have hcount := hi.count
  have hcancels := hi.cancels
  omega

theorem UploadedBy.append {controls : List AddNewDiscontVC} {path : String}
    (h : UploadedBy controls path) (c : AddNewDiscontVC) : UploadedBy (controls ++ [c]) path := by
  obtain ⟨u, hu, himage, hpath⟩ := h
  exact ⟨u, List.mem_append_left _ hu, himage, hpath⟩

theorem attempted_opened (discontUpdate : Discont) :
    Attempted urls discontUpdate [] { discontUpdate } where
  update := rfl
  phase := rfl
  count := rfl
  cancels := Nat.zero_le 1
  deleted := by split_ifs <;> rfl
  uploads := nofun
  imageURL := Or.inl rfl
  image := rfl
  texts := nofun
  sent := Or.inl rfl

/-! ## One step -/

/-- **A press** asks for the deletion of the document that is edited, or traps on the URL of its
image. -/
theorem step_saveDiscont_cases (s : DiscontScreen) (controls : AddNewDiscontVC) :
    (s.step urls (.saveDiscont controls) = none ∧ Undeletable urls s.discontUpdate) ∨
    s.step urls (.saveDiscont controls) = some { s with
      isUserInteractionEnabled := false
      deleted := s.deleted + if s.discontUpdate.id = "" then 0 else 1
      uploads := s.uploads ++ if controls.image.isSome then
        [AddNewDiscontVC.imagePath controls.nameDiscont] else []
      discont := s.collect controls
      timers := s.timers + 1 } := by
  rw [step, saveDiscont]
  by_cases hid : s.discontUpdate.id = ""
  · right
    rw [if_neg (by simp [hid]), if_pos hid]
    rfl
  · rw [if_pos (not_isEmpty_of_ne hid), if_neg hid]
    by_cases hurl : s.discontUpdate.imageURL = ""
    · right
      rw [deleteDocument, if_neg (not_not.mpr hurl)]
      rfl
    · cases hreference : urls.reference s.discontUpdate.imageURL with
      | none =>
          left
          rw [deleteDocument, if_pos hurl, hreference]
          exact ⟨rfl, hid, hurl, hreference⟩
      | some path =>
          right
          rw [deleteDocument, if_pos hurl, hreference]
          rfl

theorem attempted_press {discontUpdate : Discont} {controls : List AddNewDiscontVC}
    {s : DiscontScreen} (hi : Attempted urls discontUpdate controls s)
    (henabled : s.isUserInteractionEnabled = true) (c : AddNewDiscontVC) :
    Attempted urls discontUpdate (controls ++ [c]) { s with
      isUserInteractionEnabled := false
      deleted := s.deleted + if s.discontUpdate.id = "" then 0 else 1
      uploads := s.uploads ++ if c.image.isSome then
        [AddNewDiscontVC.imagePath c.nameDiscont] else []
      discont := s.collect c
      timers := s.timers + 1 } := by
  have hphase := hi.phase
  rw [henabled, Bool.toNat_true] at hphase
  have hunsent : s.sent = [] := List.length_eq_zero_iff.mp (by omega)
  constructor
  case update => exact hi.update
  case phase =>
    simp only [Bool.toNat_false]
    omega
  case count =>
    have hcount := hi.count
    simp only [List.length_append, List.length_singleton]
    omega
  case cancels => exact hi.cancels
  case deleted =>
    simp only [hi.deleted, hi.update, List.length_append, List.length_singleton]
    split_ifs <;> rfl
  case uploads =>
    intro path hpath
    rcases List.mem_append.mp hpath with hold | hnew
    · exact (hi.uploads path hold).append c
    · split_ifs at hnew with himage
      · exact ⟨c, by simp, himage, List.mem_singleton.mp hnew⟩
      · cases hnew
  case imageURL =>
    rcases hi.imageURL with hnone | ⟨path, hpath, hurl⟩
    · exact Or.inl hnone
    · exact Or.inr ⟨path, hpath.append c, hurl⟩
  case image => exact hi.image
  case texts =>
    intro c' hc'
    rw [List.getLast?_concat, Option.mem_some] at hc'
    subst hc'
    simp only [collect, AddNewDiscontVC.collectDiscont, published, hi.image]
  case sent => exact Or.inl hunsent

/-- **The timer** sends the discont, or counts a failed attempt. -/
theorem attempted_timer {discontUpdate : Discont} {controls : List AddNewDiscontVC}
    {s s' : DiscontScreen} (hi : Attempted urls discontUpdate controls s) (htimer : 0 < s.timers)
    (h : s.timer = some s') : Attempted urls discontUpdate controls s' := by
  have hphase := hi.phase
  have hcount := hi.count
  have hunsent : s.sent = [] := List.length_eq_zero_iff.mp (by omega)
  rw [hunsent, List.length_nil] at hphase hcount
  simp only [timer, addAction] at h
  split_ifs at h with hclosed hurl hcancels
  · -- the attempt has failed, and it is the first one
    obtain rfl := Option.some.inj h
    refine { hi with phase := ?_, count := ?_, cancels := le_rfl }
    · simp only [hunsent, Bool.toNat_true, List.length_nil]
      omega
    · simp only [hunsent, List.length_nil]
      omega
  · obtain rfl := Option.some.inj h
    refine { hi with phase := ?_, count := ?_, sent := Or.inr ?_ }
    · simp only [hunsent, List.nil_append, List.length_singleton]
      omega
    · simp only [hunsent, List.nil_append, List.length_singleton]
      omega
    · obtain hnone | ⟨path, ⟨u, hu, himage, hpath⟩, hpublished⟩ := hi.imageURL
      · exact absurd hnone (by simpa using hurl)
      · have hne : controls ≠ [] := List.ne_nil_of_mem hu
        obtain ⟨c, hc⟩ := Option.isSome_iff_exists.mp (List.getLast?_isSome.mpr hne)
        refine ⟨c, hc, u, hu, himage, ?_⟩
        rw [hunsent, List.nil_append, hi.texts c hc, hpublished, hpath]
        rfl

theorem closed_of_timer {s s' : DiscontScreen} (h : s.timer = some s') : s'.closed = s.closed := by
  simp only [timer, addAction] at h
  split_ifs at h <;> (obtain rfl := Option.some.inj h; rfl)

theorem timer_eq_none {s : DiscontScreen} (h : s.timer = none) :
    s.closed = true ∨ (s.discont.imageURL = "" ∧ s.cancels ≠ 0) := by
  simp only [timer, addAction] at h
  split_ifs at h with hclosed hurl hcancels
  · exact Or.inl hclosed
  · exact Or.inr ⟨by simpa using hurl, hcancels⟩

/-- **An upload** sets the URL, whose path is that of a press. -/
theorem attempted_uploaded {discontUpdate : Discont} {controls : List AddNewDiscontVC}
    {s : DiscontScreen} (hi : Attempted urls discontUpdate controls s) {path : String}
    (hpath : path ∈ s.uploads) :
    Attempted urls discontUpdate controls { s with
      uploads := s.uploads.erase path
      discont := { s.discont with imageURL := urls.downloadURL path } } where
  __ := hi
  uploads := fun q hq => hi.uploads q (List.mem_of_mem_erase hq)
  imageURL := Or.inr ⟨path, hi.uploads path hpath, rfl⟩
  texts := by
    intro c hc
    have htexts := hi.texts c hc
    simp only
    rw [htexts]

/-- **What ends a session** whose screen has not been closed: a press that cannot delete the old
image, or the timer of a second attempt without a URL, the first one having failed. -/
def Fails (urls : DownloadURL) (es : List DiscontEvent) (s : DiscontScreen) : DiscontEvent → Prop
  | .saveDiscont _ => Undeletable urls s.discontUpdate
  | .timer => (presses es).length = 2 ∧ s.cancels = 1 ∧ s.discont.imageURL = "" ∧ s.sent = []
  | .uploaded _ | .uploadFailed _ | .close | .leave => False

theorem fails_of_step {discontUpdate : Discont} {es : List DiscontEvent} {e : DiscontEvent}
    {s : DiscontScreen} (hi : Attempted urls discontUpdate (presses es) s)
    (henabled : s.enabled e = true) (h : s.step urls e = none) :
    s.closed = true ∨ Fails urls es s e := by
  cases e with
  | saveDiscont controls =>
      rcases step_saveDiscont_cases s controls with ⟨-, hurl⟩ | hsome
      · exact Or.inr hurl
      · rw [h] at hsome
        cases hsome
  | timer =>
      have htimer : 0 < s.timers := by simpa [enabled] using henabled
      refine (timer_eq_none h).imp_right (fun ⟨hurl, hcancels⟩ => ?_)
      have hphase := hi.phase
      have hcount := hi.count
      have hle := hi.cancels
      exact ⟨by omega, by omega, hurl, List.length_eq_zero_iff.mp (by omega)⟩
  | uploaded path =>
      simp only [step] at h
      split_ifs at h with hclosed
      exact Or.inl hclosed
  | close =>
      simp only [step] at h
      split_ifs at h with hclosed
      exact Or.inl hclosed
  | uploadFailed path => cases h
  | leave => cases h

/-- A running screen has made the attempts of its presses. -/
def AttemptInv (urls : DownloadURL) (discontUpdate : Discont) :
    Process DiscontScreen → List DiscontEvent → Prop
  | .running s, es => Attempted urls discontUpdate (presses es) s ∧ (s.closed = true → Closed es)
  | .trapped, es => (presses es).length ≤ 2

/-- A trap that is no press. -/
theorem attemptInv_trapped {discontUpdate : Discont} {es : List DiscontEvent} {e : DiscontEvent}
    {s : DiscontScreen} (hi : Attempted urls discontUpdate (presses es) s)
    (he : e.press? = none) : AttemptInv urls discontUpdate .trapped (es ++ [e]) := by
  rw [AttemptInv, presses_append_of_none he]
  exact hi.length_le

theorem attemptInv_step {discontUpdate : Discont} {p p' : Process DiscontScreen}
    {es : List DiscontEvent} {e : DiscontEvent} (hi : AttemptInv urls discontUpdate p es)
    (h : (discontScreens urls).step p e = some p') :
    AttemptInv urls discontUpdate p' (es ++ [e]) := by
  obtain ⟨s, rfl, henabled, rfl⟩ := Process.machine_step_cases h
  obtain ⟨hi, hclosed⟩ := hi
  cases e with
  | saveDiscont controls =>
      have henabled : s.closed = false ∧ s.isUserInteractionEnabled = true := by
        simpa [enabled] using henabled
      have hpresses : presses (es ++ [.saveDiscont controls]) = presses es ++ [controls] := by
        simp [presses, press?]
      have hpress := attempted_press hi henabled.2 controls
      rcases step_saveDiscont_cases s controls with ⟨hnone, hurl⟩ | hsome
      · rw [Process.next_of_none hnone, AttemptInv, hpresses]
        exact hpress.length_le
      · rw [Process.next_of_some hsome]
        refine ⟨?_, fun hc => (hclosed hc).append _⟩
        rw [hpresses]
        exact hpress
  | uploaded path =>
      have hpath : path ∈ s.uploads := by simpa [enabled] using henabled
      cases hc : s.closed with
      | true =>
          rw [Process.next_of_none (by rw [step, if_pos hc])]
          exact attemptInv_trapped hi rfl
      | false =>
          rw [Process.next_of_some (by rw [step, if_neg (by simp [hc])])]
          refine ⟨?_, fun hc => (hclosed hc).append _⟩
          rw [presses_append_of_none rfl]
          exact attempted_uploaded hi hpath
  | uploadFailed path =>
      rw [Process.next_of_some rfl]
      refine ⟨?_, fun hc => (hclosed hc).append _⟩
      rw [presses_append_of_none rfl]
      exact { hi with uploads := fun q hq => hi.uploads q (List.mem_of_mem_erase hq) }
  | timer =>
      have htimer : 0 < s.timers := by simpa [enabled] using henabled
      cases hnext : s.timer with
      | some s' =>
          have hstep : s.step urls .timer = some s' := hnext
          rw [Process.next_of_some hstep]
          refine ⟨?_, fun hc => ?_⟩
          · rw [presses_append_of_none rfl]
            exact attempted_timer hi htimer hnext
          · exact (hclosed (closed_of_timer hnext ▸ hc)).append _
      | none =>
          rw [Process.next_of_none hnext]
          exact attemptInv_trapped hi rfl
  | close =>
      cases hc : s.closed with
      | true =>
          rw [Process.next_of_none (by rw [step, if_pos hc])]
          exact attemptInv_trapped hi rfl
      | false =>
          rw [Process.next_of_some (by rw [step, if_neg (by simp [hc])])]
          refine ⟨?_, fun _ => ⟨.close, by simp, Or.inl rfl⟩⟩
          rw [presses_append_of_none rfl]
          exact { hi with }
  | leave =>
      rw [Process.next_of_some rfl]
      refine ⟨?_, fun _ => ⟨.leave, by simp, Or.inr rfl⟩⟩
      rw [presses_append_of_none rfl]
      exact { hi with }

theorem attemptInv_of_exec {discontUpdate : Discont} {es : List DiscontEvent}
    {p : Process DiscontScreen}
    (h : (discontScreens urls).exec (.running { discontUpdate }) es = some p) :
    AttemptInv urls discontUpdate p es := by
  have hinit : AttemptInv urls discontUpdate (.running { discontUpdate }) [] :=
    ⟨attempted_opened discontUpdate, nofun⟩
  have hend := EventMachine.exec_record some (AttemptInv urls discontUpdate)
    (fun _ _ _ _ hi hs => attemptInv_step hi hs) hinit h
  rwa [List.nil_append, List.filterMap_some] at hend

/-- **A session that has trapped** was closed before, or has failed at its last event. -/
theorem fails_of_trapped {discontUpdate : Discont} {es : List DiscontEvent}
    (h : (discontScreens urls).exec (.running { discontUpdate }) es = some .trapped) :
    Closed es ∨ ∃ es₀ e s, es = es₀ ++ [e] ∧
      (discontScreens urls).exec (.running { discontUpdate }) es₀ = some (.running s) ∧
      Fails urls es₀ s e := by
  cases es using List.reverseRecOn with
  | nil => cases Option.some.inj h
  | append_singleton es₀ e =>
      obtain ⟨p, hp, hlast⟩ := EventMachine.exec_append_singleton h
      obtain ⟨s, rfl, henabled, htrapped⟩ := Process.machine_step_cases hlast
      obtain ⟨hi, hclosed⟩ := attemptInv_of_exec hp
      have hnone : s.step urls e = none := by
        by_contra hsome
        exact Process.next_ne_trapped.mpr (Option.isSome_iff_ne_none.mpr hsome) htrapped.symm
      rcases fails_of_step hi henabled hnone with hc | hfails
      · exact Or.inl ((hclosed hc).append e)
      · exact Or.inr ⟨es₀, e, s, rfl, hp, hfails⟩

end DiscontScreen

/-! ## The session -/

open DiscontEvent

/-- **Two attempts, one discont.** In a session of the editor the save button is pressed twice at
most, each press asks for the deletion of the document that is edited, and at most one discont is
sent: it has the texts of the last press and the image of one of the presses. Unless the screen is
closed before, a session ends in a trap only when its second attempt fails, as the first one did, or
when a press cannot delete the old image. -/
theorem discont_attempts (urls : DownloadURL) (discontUpdate : Discont) (es : List DiscontEvent)
    (p : Process DiscontScreen)
    (h : (discontScreens urls).exec (.running { discontUpdate }) es = some p) :
    (presses es).length ≤ 2 ∧
    (∀ s, p = .running s →
      s.deleted = (if discontUpdate.id = "" then 0 else (presses es).length) ∧
      (s.sent = [] ∨ ∃ c ∈ (presses es).getLast?, ∃ u ∈ presses es, u.image.isSome ∧
        s.sent = [DiscontScreen.published urls c u])) ∧
    (p = .trapped → Closed es ∨ ∃ es₀ e s, es = es₀ ++ [e] ∧
      (discontScreens urls).exec (.running { discontUpdate }) es₀ = some (.running s) ∧
      DiscontScreen.Fails urls es₀ s e) := by
  have hend := DiscontScreen.attemptInv_of_exec h
  cases p with
  | running s =>
      refine ⟨hend.1.length_le, ?_, nofun⟩
      rintro _ ⟨rfl⟩
      exact ⟨hend.1.deleted, hend.1.sent⟩
  | trapped => exact ⟨hend, nofun, fun _ => DiscontScreen.fails_of_trapped h⟩

/-- The controls with a name and an image. -/
def namedControls (nameDiscont : String) : AddNewDiscontVC where
  image := some [1]
  nameDiscont := nameDiscont
  dateStart := "01.02"
  dateEnd := "28.02"
  discriptionDiscont := ""

/-- The image of the first attempt arrives during the second one, after the name has been changed. -/
theorem discont_attempts_renamed : ∃ (es : List DiscontEvent) (s : DiscontScreen),
    (presses es).length = 2 ∧ s.sent.map (fun d => (d.name, d.imageURL))
      = [("Педикюр", "https://discont_images/Маникюр")] ∧
    (presses es).length ≤ 2 ∧ (s.sent = [] ∨ ∃ c ∈ (presses es).getLast?, ∃ u ∈ presses es,
      u.image.isSome ∧ s.sent = [DiscontScreen.published schemeURL c u]) := by
  let es : List DiscontEvent := [.saveDiscont (namedControls "Маникюр"), .timer,
    .saveDiscont (namedControls "Педикюр"), .uploaded "discont_images/Маникюр", .timer]
  have hrun : ((discontScreens schemeURL).exec (.running { discontUpdate := {} }) es).map
      (fun p => p.running?.map (fun s => s.sent.map (fun d => (d.name, d.imageURL))))
      = some (some [("Педикюр", "https://discont_images/Маникюр")]) := by decide
  obtain ⟨p, hp, hsent⟩ := Option.map_eq_some_iff.mp hrun
  obtain ⟨hlength, hall, -⟩ := discont_attempts schemeURL {} es p hp
  cases p with
  | trapped => cases hsent
  | running s =>
      exact ⟨es, s, rfl, Option.some.inj hsent, hlength, (hall s rfl).2⟩

end Flamingo
