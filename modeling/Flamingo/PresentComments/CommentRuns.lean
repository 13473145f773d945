import Flamingo.Lib.Trap
import Flamingo.PresentAddNewComment.AddNewCommentVC

set_option autoImplicit false

/-! # Comments from the press to the row

Users of any number of devices write comments and look at the list of all of them. The server adds
the documents in any order, and at any place of the collection, as it sorts by the ids that it has
made; it reads the collection for a screen at some moment after the request.

A screen of comments that is closed before its answer has arrived takes the process with it: the
handler unwraps its screen, which is gone.
-/

namespace Flamingo

/-- An opened `PresentCommentsVC`. `before` is not in the program: the collection when it was
opened. -/
structure CommentsScreen where
  number : Nat
  arrayComments : List Comment
  isHidden : Bool
  before : List Document

/-- The table of a screen. -/
def CommentsScreen.rows (screen : CommentsScreen) : List PresentCommentsVC.Row :=
  screen.arrayComments.map PresentCommentsVC.cellForRowAt

structure CommentsDevice where
  persons : Table Person
  writing : Option AddNewCommentVC
  reading : Option CommentsScreen
  /-- how many screens of comments have been opened -/
  opened : Nat
  /-- the screens that wait for their documents, and the documents once the server has read them -/
  queries : List (Nat × Option (List Document))

structure Comments where
  /-- the collection `commentFlamingo` -/
  collection : List Document
  devices : Nat → Process CommentsDevice
  /-- the documents on their way to the server -/
  adding : List DocData
  /-- what the screens have shown, under the name of the first account, when the button was
  pressed -/
  presses : List (Nat × PresentCommentsVC.Row)

inductive CommentEvent
  | saveObject (device : Nat) (person : Person)
  | actionNewComment (device : Nat) (now : ℚ)
  | actionReting (device : Nat) (tag : Int)
  | edited (device : Nat) (text : String)
  | actionSendComment (device : Nat) (now : ℚ)
  | actionExit (device : Nat)
  | added (i position : Nat) (documentID : String)
  | addedError (i : Nat)
  | openComments (device : Nat)
  | closeComments (device : Nat)
  | getDocuments (device i : Nat)
  | answered (device i : Nat)
  | answeredError (device i : Nat)

namespace CommentsDevice

def openNewComment (d : CommentsDevice) (now : ℚ) : CommentsDevice :=
  match actionNewComment d.persons now with
  | .ok screen => { d with writing := some screen }
  | .error _ => d

def openComments (d : CommentsDevice) (collection : List Document) : CommentsDevice :=
  { d with
    reading := some ⟨d.opened, [], true, collection⟩
    opened := d.opened + 1
    queries := d.queries ++ [(d.opened, none)] }

/-- The server reads the collection for a query. -/
def getDocuments (d : CommentsDevice) (collection : List Document) (i : Nat) :
    Option CommentsDevice :=
  match d.queries[i]? with
  | some (number, none) => some { d with queries := d.queries.set i (number, some collection) }
  | _ => none

/-- The screen of a query after the loop. -/
def received (screen : CommentsScreen) (documents : List Document) : CommentsScreen :=
  let result := PresentCommentsVC.getAllComments screen.arrayComments documents
  { screen with
    arrayComments := result.1
    isHidden := if result.2 then false else screen.isHidden }

def answered (d : CommentsDevice) (i : Nat) : Option (Process CommentsDevice) :=
  match d.queries[i]? with
  | some (number, some documents) =>
      let d := { d with queries := d.queries.eraseIdx i }
      match d.reading with
      | some screen =>
          if screen.number = number then
            some (.running { d with reading := some (received screen documents) })
          else some .trapped
      | none => some .trapped
  | _ => none

end CommentsDevice

namespace Comments

/-- A step of a device whose process has not ended. -/
def onDevice (s : Comments) (device : Nat) (f : CommentsDevice → Option (Process CommentsDevice)) :
    Option Comments :=
  match s.devices device with
  | .running d => (f d).map (fun next => { s with devices := Function.update s.devices device next })
  | .trapped => none

/-- The documents that the button sends, and what the screen shows. -/
def send (s : Comments) (device : Nat) (now : ℚ) : Option Comments :=
  match s.devices device with
  | .running d => d.writing.map (fun screen =>
      let result := screen.actionSendComment d.persons now
      { s with
        devices := Function.update s.devices device (.running { d with writing := some result.1 })
        adding := s.adding ++ result.2.toOption.toList
        presses := s.presses ++ (result.2.toOption.bind (fun _ =>
          (firstPerson d.persons).map (fun person => (device, screen.atPress person now)))).toList })
  | .trapped => none

def step (s : Comments) : CommentEvent → Option Comments
  | .saveObject device person => s.onDevice device (fun d =>
      some (.running { d with persons := d.persons.saveObjectRealm person }))
  | .actionNewComment device now => s.onDevice device (fun d => some (.running (d.openNewComment now)))
  | .actionReting device tag => s.onDevice device (fun d =>
      some (.running { d with writing := d.writing.map (·.actionReting tag) }))
  | .edited device text => s.onDevice device (fun d => some (.running { d with
      writing := d.writing.map (fun screen => { screen with textVeiwComment := text }) }))
  | .actionSendComment device now => s.send device now
  | .actionExit device => s.onDevice device (fun d => some (.running { d with writing := none }))
  | .added i position documentID => s.adding[i]?.map (fun data => { s with
      collection := s.collection.take position ++ ⟨documentID, data⟩ :: s.collection.drop position
      adding := s.adding.eraseIdx i })
  | .addedError i => some { s with adding := s.adding.eraseIdx i }
  | .openComments device => s.onDevice device (fun d =>
      some (.running (d.openComments s.collection)))
  | .closeComments device => s.onDevice device (fun d => some (.running { d with reading := none }))
  | .getDocuments device i => s.onDevice device (fun d =>
      (d.getDocuments s.collection i).map .running)
  | .answered device i => s.onDevice device (fun d => d.answered i)
  | .answeredError device i => s.onDevice device (fun d =>
      some (.running { d with queries := d.queries.eraseIdx i }))

end Comments

/-- No comments yet, and devices without a screen. -/
def comments : EventMachine Comments CommentEvent where
  init s := s.collection = [] ∧ s.adding = [] ∧ s.presses = [] ∧
    ∀ device, ∃ persons opened, s.devices device = .running ⟨persons, none, none, opened, []⟩
  step := Comments.step

/-! ## The documents -/

namespace Comments

/-- A document that the button has sent. -/
def Sent (data : DocData) : Prop :=
  ∃ comment : Comment, data = saveCommentToFirebase comment ∧
    (1 ≤ comment.rating ∧ comment.rating ≤ 5) ∧ comment.commentBody ≠ ""

/-- The rows that documents are shown in. -/
def rowsOf (data : List DocData) : List PresentCommentsVC.Row :=
  data.filterMap (fun data => (data.date? "date").map
    (fun date => PresentCommentsVC.cellForRowAt (PresentCommentsVC.comment data date)))

theorem rowsOf_perm {a b : List DocData} (h : a.Perm b) : (rowsOf a).Perm (rowsOf b) :=
  h.filterMap _

theorem rowsOf_sublist {a b : List DocData} (h : a.Sublist b) : (rowsOf a).Sublist (rowsOf b) :=
  h.filterMap _

theorem rowsOf_saveCommentToFirebase (comment : Comment) :
    rowsOf [saveCommentToFirebase comment] = [PresentCommentsVC.cellForRowAt comment] := by
  rw [rowsOf, List.filterMap_cons, PresentCommentsVC.date?_saveCommentToFirebase, Option.map_some,
    PresentCommentsVC.comment_saveCommentToFirebase]
  show [PresentCommentsVC.cellForRowAt { comment with date := truncated comment.date }] = _
  rw [PresentCommentsVC.cellForRowAt, floor_truncated]
  rfl

/-- The loop makes a row of every document. -/
theorem getAllComments_of_sent {documents : List Document}
    (h : ∀ d ∈ documents, Sent d.data) :
    (PresentCommentsVC.getAllComments [] documents).2 = true ∧
      (PresentCommentsVC.getAllComments [] documents).1.map PresentCommentsVC.cellForRowAt
        = rowsOf (documents.map (·.data)) := by
  have hdated : ∀ d ∈ documents, PresentCommentsVC.dated d = true := by
    intro d hd
    obtain ⟨comment, hdata, -⟩ := h d hd
    rw [PresentCommentsVC.dated, hdata, PresentCommentsVC.date?_saveCommentToFirebase]
    rfl
  rw [PresentCommentsVC.getAllComments_eq]
  refine ⟨List.all_eq_true.mpr hdated, ?_⟩
  rw [List.takeWhile_eq_self_iff.mpr hdated, List.nil_append, List.map_filterMap, rowsOf,
    List.filterMap_map]
  congr 1
  funext d
  rw [PresentCommentsVC.comment?, Option.map_map]
  rfl

/-! ## The invariant -/

/-- A screen of comments shows nothing, or what the server read between its opening and now. -/
structure Reads (collection : List Document) (screen : CommentsScreen) : Prop where
  hidden : screen.isHidden = true → screen.arrayComments = []
  before : screen.before.Sublist collection
  shown : screen.isHidden = false → ∃ documents : List Document,
    screen.before.Sublist documents ∧ documents.Sublist collection ∧
      screen.rows = rowsOf (documents.map (·.data))

/-- The server has read the documents of a query between the opening of its screen and now. -/
structure Queried (collection : List Document) (d : CommentsDevice)
    (q : Nat × Option (List Document)) : Prop where
  opened : q.1 < d.opened
  answer : ∀ documents ∈ q.2, documents.Sublist collection
  screen : ∀ screen ∈ d.reading, screen.number = q.1 →
    screen.isHidden = true ∧ ∀ documents ∈ q.2, screen.before.Sublist documents

structure DeviceInv (collection : List Document) (d : CommentsDevice) : Prop where
  writing : ∀ screen ∈ d.writing, screen.Shows ∧ (firstPerson d.persons).isSome
  reading : ∀ screen ∈ d.reading, screen.number < d.opened ∧ Reads collection screen
  queries : ∀ q ∈ d.queries, Queried collection d q
  nodup : (d.queries.map Prod.fst).Nodup

structure Inv (s : Comments) : Prop where
  sent : ∀ data ∈ s.collection.map (·.data) ++ s.adding, Sent data
  rows : (rowsOf (s.collection.map (·.data) ++ s.adding)).Subperm (s.presses.map Prod.snd)
  devices : ∀ device d, s.devices device = .running d → DeviceInv s.collection d
  name : ∀ press ∈ s.presses, ∀ d, s.devices press.1 = .running d →
    (firstPerson d.persons).map (·.name) = some press.2.namePerson

theorem inv_init {s : Comments} (h : comments.init s) : s.Inv := by
  obtain ⟨hcollection, hadding, hpresses, hdevices⟩ := h
  constructor
  · rw [hcollection, hadding]
    exact nofun
  · rw [hcollection, hadding]
    exact List.nil_subperm
  · intro device d hd
    obtain ⟨persons, opened, hrunning⟩ := hdevices device
    rw [hrunning] at hd
    obtain rfl := Process.running.inj hd
    exact ⟨nofun, nofun, nofun, List.nodup_nil⟩
  · rw [hpresses]
    exact nofun

/-! ## The steps of a device -/

theorem Reads.mono {a b : List Document} {screen : CommentsScreen} (h : Reads a screen)
    (hab : a.Sublist b) : Reads b screen := by
  refine ⟨h.hidden, h.before.trans hab, fun hshown => ?_⟩
  obtain ⟨documents, hbefore, hdocuments, hrows⟩ := h.shown hshown
  exact ⟨documents, hbefore, hdocuments.trans hab, hrows⟩

theorem DeviceInv.mono {a b : List Document} {d : CommentsDevice} (h : DeviceInv a d)
    (hab : a.Sublist b) : DeviceInv b d := by
  refine ⟨h.writing, fun screen hscreen => ?_, fun q hq => ?_, h.nodup⟩
  · obtain ⟨hlt, hreads⟩ := h.reading screen hscreen
    exact ⟨hlt, hreads.mono hab⟩
  · obtain ⟨hopened, hanswer, hscreen⟩ := h.queries q hq
    exact ⟨hopened, fun documents hmem => (hanswer documents hmem).trans hab, hscreen⟩

theorem firstPerson_saveObjectRealm {persons : Table Person} {person first : Person}
    (h : firstPerson persons = some first) :
    firstPerson (persons.saveObjectRealm person) = some first := by
  unfold firstPerson at h ⊢
  obtain ⟨o, ho, rfl⟩ := Option.map_eq_some_iff.mp h
  show (persons.objects ++ [(persons.next, person)]).head?.map Prod.snd = some o.2
  rw [List.head?_append, ho]
  rfl

theorem isSome_firstPerson {persons : Table Person} (h : persons.objects.length > 0) :
    (firstPerson persons).isSome := by
  unfold firstPerson
  cases hobjects : persons.objects with
  | nil =>
      rw [hobjects] at h
      exact absurd h (Nat.lt_irrefl 0)
  | cons o objects => rfl

/-- What a step of a device keeps. -/
structure Keeps (collection : List Document) (d d' : CommentsDevice) : Prop where
  inv : DeviceInv collection d'
  first : ∀ first, firstPerson d.persons = some first → firstPerson d'.persons = some first

section

variable {collection : List Document} {d : CommentsDevice}

theorem keeps_saveObject (h : DeviceInv collection d) (person : Person) :
    Keeps collection d { d with persons := d.persons.saveObjectRealm person } := by
  refine ⟨⟨fun screen hscreen => ?_, h.reading, ?_, h.nodup⟩, fun first =>
    firstPerson_saveObjectRealm⟩
  · obtain ⟨hshows, hsome⟩ := h.writing screen hscreen
    obtain ⟨first, hfirst⟩ := Option.isSome_iff_exists.mp hsome
    refine ⟨hshows, ?_⟩
    show (firstPerson (d.persons.saveObjectRealm person)).isSome
    rw [firstPerson_saveObjectRealm hfirst]
    rfl
  · intro q hq
    obtain ⟨hopened, hanswer, hscreen⟩ := h.queries q hq
    exact ⟨hopened, hanswer, hscreen⟩

/-- The screen of a new comment is opened, changed or closed. -/
theorem keeps_writing (h : DeviceInv collection d) (writing : Option AddNewCommentVC)
    (hwriting : ∀ screen ∈ writing, screen.Shows ∧ (firstPerson d.persons).isSome) :
    Keeps collection d { d with writing } := by
  refine ⟨⟨hwriting, h.reading, fun q hq => ?_, h.nodup⟩, fun _ hfirst => hfirst⟩
  obtain ⟨hopened, hanswer, hscreen⟩ := h.queries q hq
  exact ⟨hopened, hanswer, hscreen⟩

theorem keeps_openNewComment (h : DeviceInv collection d) (now : ℚ) :
    Keeps collection d (d.openNewComment now) := by
  unfold CommentsDevice.openNewComment actionNewComment
  by_cases hperson : d.persons.objects.length > 0
  · rw [if_pos hperson]
    apply keeps_writing h
    intro screen hscreen
    obtain rfl := Option.mem_some_iff.mp hscreen
    exact ⟨AddNewCommentVC.shows_opened now, isSome_firstPerson hperson⟩
  · rw [if_neg hperson]
    exact ⟨h, fun _ hfirst => hfirst⟩

theorem keeps_map (h : DeviceInv collection d) (f : AddNewCommentVC → AddNewCommentVC)
    (hf : ∀ screen : AddNewCommentVC, screen.Shows → (f screen).Shows) :
    Keeps collection d { d with writing := d.writing.map f } := by
  apply keeps_writing h
  intro screen hscreen
  obtain ⟨before, hbefore, rfl⟩ := Option.map_eq_some_iff.mp hscreen
  obtain ⟨hshows, hsome⟩ := h.writing before hbefore
  exact ⟨hf before hshows, hsome⟩

theorem keeps_openComments (h : DeviceInv collection d) :
    Keeps collection d (d.openComments collection) := by
  have hfresh : d.opened ∉ d.queries.map Prod.fst := by
    intro hmem
    obtain ⟨q, hq, heq⟩ := List.mem_map.mp hmem
    have := (h.queries q hq).opened
    omega
  refine ⟨⟨h.writing, ?_, ?_, ?_⟩, fun _ hfirst => hfirst⟩
  · intro screen hscreen
    obtain rfl := Option.mem_some_iff.mp hscreen
    exact ⟨Nat.lt_succ_self _, fun _ => rfl, List.Sublist.refl _, nofun⟩
  · intro q hq
    rcases List.mem_append.mp hq with hq | hq
    · obtain ⟨hopened, hanswer, -⟩ := h.queries q hq
      refine ⟨Nat.lt_succ_of_lt hopened, hanswer, ?_⟩
      intro screen hscreen hnumber
      obtain rfl := Option.mem_some_iff.mp hscreen
      exact absurd hnumber (Nat.ne_of_gt hopened)
    · obtain rfl := List.mem_singleton.mp hq
      refine ⟨Nat.lt_succ_self _, nofun, ?_⟩
      intro screen hscreen _
      obtain rfl := Option.mem_some_iff.mp hscreen
      exact ⟨rfl, nofun⟩
  · show ((d.queries ++ [(d.opened, none)]).map Prod.fst).Nodup
    rw [List.map_append, List.nodup_append]
    refine ⟨h.nodup, List.nodup_singleton _, ?_⟩
    rintro number hnumber _ hlast rfl
    rw [List.mem_singleton.mp hlast] at hnumber
    exact hfresh hnumber

theorem keeps_closeComments (h : DeviceInv collection d) :
    Keeps collection d { d with reading := none } := by
  refine ⟨⟨h.writing, nofun, fun q hq => ?_, h.nodup⟩, fun _ hfirst => hfirst⟩
  obtain ⟨hopened, hanswer, -⟩ := h.queries q hq
  exact ⟨hopened, hanswer, nofun⟩

theorem keeps_getDocuments (h : DeviceInv collection d) {i : Nat} {d' : CommentsDevice}
    (hd : d.getDocuments collection i = some d') : Keeps collection d d' := by
  unfold CommentsDevice.getDocuments at hd
  split at hd
  · rename_i number hquery
    obtain rfl := Option.some.inj hd
    obtain ⟨hlt, hget⟩ := List.getElem?_eq_some_iff.mp hquery
    have hquery := h.queries _ (List.mem_of_getElem? hquery)
    have hnumbers : (d.queries.set i (number, some collection)).map Prod.fst
        = d.queries.map Prod.fst := by
      rw [List.map_set]
      apply List.ext_getElem (by simp)
      intro j hj hj'
      rw [List.getElem_set]
      split_ifs with hij
      · subst hij
        rw [List.getElem_map, hget]
      · rfl
    refine ⟨⟨h.writing, h.reading, ?_, ?_⟩, fun _ hfirst => hfirst⟩
    · intro q hq
      rcases List.mem_or_eq_of_mem_set hq with hq | rfl
      · obtain ⟨hopened, hanswer, hscreen⟩ := h.queries q hq
        exact ⟨hopened, hanswer, hscreen⟩
      · refine ⟨hquery.opened, ?_, ?_⟩
        · intro documents hdocuments
          obtain rfl := Option.mem_some_iff.mp hdocuments
          exact List.Sublist.refl _
        · intro screen hscreen hnumber
          refine ⟨(hquery.screen screen hscreen hnumber).1, ?_⟩
          intro documents hdocuments
          obtain rfl := Option.mem_some_iff.mp hdocuments
          exact (h.reading screen hscreen).2.before
    · show ((d.queries.set i (number, some collection)).map Prod.fst).Nodup
      rw [hnumbers]
      exact h.nodup
  · cases hd

/-- A query has been answered. -/
theorem deviceInv_eraseIdx (h : DeviceInv collection d) (i : Nat) :
    DeviceInv collection { d with queries := d.queries.eraseIdx i } := by
  refine ⟨h.writing, h.reading, ?_, ?_⟩
  · intro q hq
    obtain ⟨hopened, hanswer, hscreen⟩ := h.queries q (List.mem_of_mem_eraseIdx hq)
    exact ⟨hopened, hanswer, hscreen⟩
  · show ((d.queries.eraseIdx i).map Prod.fst).Nodup
    exact h.nodup.sublist ((List.eraseIdx_sublist _ _).map _)

theorem keeps_answered (hsent : ∀ x ∈ collection, Sent x.data) (h : DeviceInv collection d)
    {i : Nat} {d' : CommentsDevice} (hd : d.answered i = some (.running d')) :
    Keeps collection d d' := by
  unfold CommentsDevice.answered at hd
  split at hd
  · rename_i number documents hquery
    have hmem := List.mem_of_getElem? hquery
    obtain ⟨hopened, hanswer, hscreen⟩ := h.queries _ hmem
    dsimp only at hd
    split at hd
    · rename_i screen hreading
      split_ifs at hd with hnumber
      · obtain rfl := Process.running.inj (Option.some.inj hd)
        obtain ⟨hlt, hreads⟩ := h.reading screen hreading
        obtain ⟨hhidden, hbefore⟩ := hscreen screen hreading hnumber
        have hdocuments := hanswer documents rfl
        obtain ⟨hshown, hrows⟩ := getAllComments_of_sent
          (fun x hx => hsent x (hdocuments.subset hx))
        have hreceived : CommentsDevice.received screen documents = { screen with
            arrayComments := (PresentCommentsVC.getAllComments [] documents).1
            isHidden := false } := by
          rw [CommentsDevice.received, hreads.hidden hhidden, hshown, if_pos rfl]
        have herase := deviceInv_eraseIdx h i
        refine ⟨⟨h.writing, ?_, ?_, herase.nodup⟩, fun _ hfirst => hfirst⟩
        · intro after hafter
          obtain rfl := Option.mem_some_iff.mp hafter
          rw [hreceived]
          refine ⟨hlt, nofun, hreads.before, fun _ => ?_⟩
          exact ⟨documents, hbefore documents rfl, hdocuments, hrows⟩
        · intro q hq
          obtain ⟨hopened', hanswer', -⟩ := herase.queries q hq
          refine ⟨hopened', hanswer', ?_⟩
          intro after hafter hnumber'
          obtain rfl := Option.mem_some_iff.mp hafter
          -- the query of the screen is gone
          have hne : q.1 ≠ number := by
            obtain ⟨j, hj, hji⟩ := List.mem_eraseIdx_iff_getElem?.mp hq
            rintro rfl
            have hjq : (d.queries.map Prod.fst)[j]? = some q.1 := by rw [List.getElem?_map, hji]; rfl
            have hiq : (d.queries.map Prod.fst)[i]? = some q.1 := by
              rw [List.getElem?_map, hquery]; rfl
            obtain ⟨hjlt, hjget⟩ := List.getElem?_eq_some_iff.mp hjq
            obtain ⟨hilt, higet⟩ := List.getElem?_eq_some_iff.mp hiq
            exact hj ((List.Nodup.getElem_inj_iff h.nodup).mp (hjget.trans higet.symm))
          rw [hreceived] at hnumber'
          exact absurd (hnumber'.symm.trans hnumber) hne
      · cases hd
    · cases hd
  · cases hd

end

/-! ## The steps -/

theorem onDevice_eq_some {s s' : Comments} {device : Nat}
    {f : CommentsDevice → Option (Process CommentsDevice)} (h : s.onDevice device f = some s') :
    ∃ d next, s.devices device = .running d ∧ f d = some next ∧
      s' = { s with devices := Function.update s.devices device next } := by
  unfold onDevice at h
  split at h
  · rename_i d hd
    obtain ⟨next, hnext, rfl⟩ := Option.map_eq_some_iff.mp h
    exact ⟨d, next, hd, hnext, rfl⟩
  · cases h

/-- **A step of one device** keeps the invariant if the device does, or ends. -/
theorem inv_onDevice {s : Comments} (hi : s.Inv) {device : Nat} {d : CommentsDevice}
    {next : Process CommentsDevice} (hd : s.devices device = .running d)
    (hnext : ∀ d', next = .running d' → Keeps s.collection d d') :
    Inv { s with devices := Function.update s.devices device next } := by
  refine ⟨hi.sent, hi.rows, ?_, ?_⟩
  · intro other d' hd'
    replace hd' : Function.update s.devices device next other = .running d' := hd'
    by_cases heq : other = device
    · rw [heq, Function.update_self] at hd'
      exact (hnext d' hd').inv
    · rw [Function.update_of_ne heq] at hd'
      exact hi.devices other d' hd'
  · intro press hpress d' hd'
    replace hd' : Function.update s.devices device next press.1 = .running d' := hd'
    by_cases heq : press.1 = device
    · obtain ⟨first, hfirst, hname⟩ :=
        Option.map_eq_some_iff.mp (hi.name press hpress d (heq ▸ hd))
      rw [heq, Function.update_self] at hd'
      rw [(hnext d' hd').first first hfirst, Option.map_some, hname]
    · rw [Function.update_of_ne heq] at hd'
      exact hi.name press hpress d' hd'

theorem inv_running {s : Comments} (hi : s.Inv) {device : Nat} {s' : Comments}
    {f : CommentsDevice → CommentsDevice}
    (hf : ∀ d, DeviceInv s.collection d → Keeps s.collection d (f d))
    (h : s.onDevice device (fun d => some (.running (f d))) = some s') : s'.Inv := by
  obtain ⟨d, next, hd, hnext, rfl⟩ := onDevice_eq_some h
  obtain rfl := Option.some.inj hnext
  refine inv_onDevice hi hd fun d' hd' => ?_
  obtain rfl := Process.running.inj hd'
  exact hf d (hi.devices device d hd)

/-- **The press** sends one document, for the row that the screen shows. -/
theorem inv_send {s s' : Comments} (hi : s.Inv) {device : Nat} {now : ℚ}
    (h : s.send device now = some s') : s'.Inv := by
  unfold send at h
  split at h
  · rename_i d hd
    obtain ⟨screen, hscreen, rfl⟩ := Option.map_eq_some_iff.mp h
    have hdevice := hi.devices device d hd
    obtain ⟨hshows, hsome⟩ := hdevice.writing screen hscreen
    obtain ⟨person, hperson⟩ := Option.isSome_iff_exists.mp hsome
    cases hsend : screen.actionSendComment d.persons now with
    | mk after result =>
        have hafter : ∀ {after : AddNewCommentVC}, after.Shows →
            Inv { s with devices :=
              Function.update s.devices device (.running { d with writing := some after }) } := by
          intro after hshows'
          refine inv_onDevice hi hd fun d' hd' => ?_
          obtain rfl := Process.running.inj hd'
          apply keeps_writing hdevice
          intro screen' hscreen'
          obtain rfl := Option.mem_some_iff.mp hscreen'
          exact ⟨hshows', hsome⟩
        cases result with
        | error message =>
            -- an alert, and the screen as it was
            have hsame : after = screen := by
              unfold AddNewCommentVC.actionSendComment at hsend
              split_ifs at hsend
              · exact (Prod.mk.inj hsend).1.symm
              · cases (Prod.mk.inj hsend).2
              · exact (Prod.mk.inj hsend).1.symm
            subst hsame
            simpa [hsend, Except.toOption] using hafter hshows
        | ok data =>
            obtain ⟨hshows', comment, rfl, hrating, hbody, hrow⟩ :=
              AddNewCommentVC.sent_of_actionSendComment hshows hperson hsend
            obtain ⟨hsent, hrows, hdevices, hname⟩ := hafter hshows'
            simp only [hperson, Except.toOption, Option.toList_some, Option.map_some,
              Option.bind_some]
            refine ⟨?_, ?_, hdevices, ?_⟩
            · rw [← List.append_assoc]
              intro data hdata
              rcases List.mem_append.mp hdata with hdata | hdata
              · exact hsent data hdata
              · rw [List.mem_singleton.mp hdata]
                exact ⟨comment, rfl, hrating, hbody⟩
            · rw [← List.append_assoc, rowsOf, List.filterMap_append, List.map_append]
              refine hrows.append ?_
              show (rowsOf [saveCommentToFirebase comment]).Subperm _
              rw [rowsOf_saveCommentToFirebase, hrow]
              exact List.Subperm.refl _
            · intro press hpress
              rcases List.mem_append.mp hpress with hpress | hpress
              · exact hname press hpress
              · obtain rfl := List.mem_singleton.mp hpress
                intro d' hd'
                replace hd' : Function.update s.devices device
                  (.running { d with writing := some after }) device = .running d' := hd'
                rw [Function.update_self] at hd'
                obtain rfl := Process.running.inj hd'
                show (firstPerson d.persons).map (·.name) = _
                rw [hperson]
                rfl
  · cases h

/-- **The server** adds a document: nothing is lost and nothing comes twice. -/
theorem inv_added {s s' : Comments} (hi : s.Inv) {i position : Nat} {documentID : String}
    (h : s.step (.added i position documentID) = some s') : s'.Inv := by
  obtain ⟨data, hdata, rfl⟩ := Option.map_eq_some_iff.mp h
  obtain ⟨hlt, rfl⟩ := List.getElem?_eq_some_iff.mp hdata
  have hperm : ((s.collection.take position ++ ⟨documentID, s.adding[i]⟩ ::
      s.collection.drop position).map (·.data) ++ s.adding.eraseIdx i).Perm
        (s.collection.map (·.data) ++ s.adding) := by
    have hcollection : (s.collection.take position ++ (⟨documentID, s.adding[i]⟩ : Document) ::
        s.collection.drop position).Perm (⟨documentID, s.adding[i]⟩ :: s.collection) := by
      refine List.perm_middle.trans ?_
      rw [List.take_append_drop]
    refine ((hcollection.map (·.data)).append_right _).trans ?_
    rw [List.map_cons, List.cons_append]
    refine List.perm_middle.symm.trans ?_
    exact List.Perm.append_left _ (List.getElem_cons_eraseIdx_perm hlt)
  have hsublist : s.collection.Sublist
      (s.collection.take position ++ ⟨documentID, s.adding[i]⟩ :: s.collection.drop position) := by
    conv_lhs => rw [← List.take_append_drop position s.collection]
    exact List.Sublist.append_left (List.sublist_cons_self _ _) _
  refine ⟨fun data hmem => hi.sent data (hperm.subset hmem), ?_, ?_, hi.name⟩
  · exact (rowsOf_perm hperm).subperm.trans hi.rows
  · exact fun device d hd => (hi.devices device d hd).mono hsublist

theorem inv_addedError {s s' : Comments} (hi : s.Inv) {i : Nat}
    (h : s.step (.addedError i) = some s') : s'.Inv := by
  obtain rfl := Option.some.inj h
  have hsublist : (s.collection.map (·.data) ++ s.adding.eraseIdx i).Sublist
      (s.collection.map (·.data) ++ s.adding) :=
    List.Sublist.append_left (List.eraseIdx_sublist _ _) _
  refine ⟨fun data hmem => hi.sent data (hsublist.subset hmem), ?_, hi.devices, hi.name⟩
  exact (rowsOf_sublist hsublist).subperm.trans hi.rows

theorem inv_step {s s' : Comments} {e : CommentEvent} (hi : s.Inv) (h : s.step e = some s') :
    s'.Inv := by
  cases e with
  | saveObject device person => exact inv_running hi (fun d hd => keeps_saveObject hd person) h
  | actionNewComment device now => exact inv_running hi (fun d hd => keeps_openNewComment hd now) h
  | actionReting device tag =>
      exact inv_running hi (fun d hd => keeps_map hd (·.actionReting tag)
        (fun screen hscreen => AddNewCommentVC.shows_actionReting hscreen tag)) h
  | edited device text =>
      exact inv_running hi (fun d hd => keeps_map hd (fun screen =>
        { screen with textVeiwComment := text }) (fun _ hscreen => ⟨hscreen.range, hscreen.stars⟩)) h
  | actionSendComment device now => exact inv_send hi h
  | actionExit device =>
      exact inv_running hi (fun d hd => keeps_writing hd none nofun) h
  | added i position documentID => exact inv_added hi h
  | addedError i => exact inv_addedError hi h
  | openComments device => exact inv_running hi (fun d hd => keeps_openComments hd) h
  | closeComments device => exact inv_running hi (fun d hd => keeps_closeComments hd) h
  | getDocuments device i =>
      obtain ⟨d, next, hd, hnext, rfl⟩ := onDevice_eq_some h
      obtain ⟨after, hafter, rfl⟩ := Option.map_eq_some_iff.mp hnext
      refine inv_onDevice hi hd fun d' hd' => ?_
      obtain rfl := Process.running.inj hd'
      exact keeps_getDocuments (hi.devices device d hd) hafter
  | answered device i =>
      obtain ⟨d, next, hd, hnext, rfl⟩ := onDevice_eq_some h
      refine inv_onDevice hi hd fun d' hd' => ?_
      rw [hd'] at hnext
      apply keeps_answered _ (hi.devices device d hd) hnext
      exact fun x hx => hi.sent _ (List.mem_append_left _ (List.mem_map_of_mem hx))
  | answeredError device i =>
      exact inv_running hi (fun d hd => ⟨deviceInv_eraseIdx hd i, fun _ hfirst => hfirst⟩) h

theorem inv_of_reachable {s : Comments} (hs : comments.Reachable s) : s.Inv :=
  hs.invariant Inv (fun _ h0 => inv_init h0) (fun _ _ _ hi _ hstep => inv_step hi hstep)

/-- The rows of a screen that is shown are those of the documents that the server has read. -/
theorem rows_of_screen {s : Comments} (hi : s.Inv) {device : Nat} {d : CommentsDevice}
    (hd : s.devices device = .running d) {screen : CommentsScreen} (hscreen : screen ∈ d.reading) :
    (screen.isHidden = true → screen.rows = []) ∧
      (screen.isHidden = false → (rowsOf (screen.before.map (·.data))).Sublist screen.rows) ∧
      screen.rows.Sublist (rowsOf (s.collection.map (·.data))) := by
  obtain ⟨-, hreads⟩ := (hi.devices device d hd).reading screen hscreen
  cases hhidden : screen.isHidden with
  | true =>
      have hrows : screen.rows = [] := by rw [CommentsScreen.rows, hreads.hidden hhidden, List.map_nil]
      exact ⟨fun _ => hrows, nofun, hrows ▸ List.nil_sublist _⟩
  | false =>
      obtain ⟨documents, hbefore, hdocuments, hrows⟩ := hreads.shown hhidden
      refine ⟨nofun, fun _ => ?_, ?_⟩
      · rw [hrows]
        exact rowsOf_sublist (hbefore.map _)
      · rw [hrows]
        exact rowsOf_sublist (hdocuments.map _)

theorem row_of_sent {data : List DocData} (hsent : ∀ d ∈ data, Sent d)
    {row : PresentCommentsVC.Row} (hrow : row ∈ rowsOf data) :
    row.commentBody ≠ "" ∧ ∃ rating, 1 ≤ rating ∧ rating ≤ 5 ∧
      row.stars = PresentCommentsVC.starsOf rating := by
  obtain ⟨d, hd, hsome⟩ := List.mem_filterMap.mp hrow
  obtain ⟨comment, rfl, ⟨hlow, hhigh⟩, hbody⟩ := hsent d hd
  rw [PresentCommentsVC.date?_saveCommentToFirebase, Option.map_some,
    PresentCommentsVC.comment_saveCommentToFirebase] at hsome
  obtain rfl := Option.some.inj hsome
  exact ⟨hbody, comment.rating, hlow, hhigh, rfl⟩

end Comments

/-- **Comments are shown as they were sent.** However many users write and read comments at once, an
opened list shows each press of a send button at most once and nothing else: with the text and the
stars that the author's screen showed, one to five of them, under the name of the first account of
the author's device, which stays the first one. A list that has its answer shows every comment that
was there when it was opened, and a list that is hidden shows none. -/
theorem comments_as_sent (s : Comments) (hs : comments.Reachable s) (device : Nat)
    (d : CommentsDevice) (hd : s.devices device = .running d) (screen : CommentsScreen)
    (hscreen : screen ∈ d.reading) :
    screen.rows.Subperm (s.presses.map Prod.snd) ∧
      (screen.isHidden = true → screen.rows = []) ∧
      (screen.isHidden = false →
        (Comments.rowsOf (screen.before.map (·.data))).Sublist screen.rows) ∧
      ∀ row ∈ screen.rows, row.commentBody ≠ "" ∧
        (∃ rating, 1 ≤ rating ∧ rating ≤ 5 ∧ row.stars = PresentCommentsVC.starsOf rating) ∧
        ∃ press ∈ s.presses, press.2 = row ∧ ∀ author, s.devices press.1 = .running author →
          (firstPerson author.persons).map (·.name) = some row.namePerson := by
  have hi := Comments.inv_of_reachable hs
  obtain ⟨hhidden, hshown, hsublist⟩ := Comments.rows_of_screen hi hd hscreen
  have hall : (Comments.rowsOf (s.collection.map (·.data))).Sublist
      (Comments.rowsOf (s.collection.map (·.data) ++ s.adding)) :=
    Comments.rowsOf_sublist (List.sublist_append_left _ _)
  have hsubperm := (hsublist.trans hall).subperm.trans hi.rows
  refine ⟨hsubperm, hhidden, hshown, fun row hrow => ?_⟩
  obtain ⟨hbody, hrating⟩ := Comments.row_of_sent hi.sent (hall.subset (hsublist.subset hrow))
  obtain ⟨press, hpress, rfl⟩ := List.mem_map.mp (hsubperm.subset hrow)
  exact ⟨hbody, hrating, press, hpress, rfl, hi.name press hpress⟩

/-- A comment with four stars is written on one device and read on another one. -/
def commentEvents : List CommentEvent :=
  [.saveObject 0 { name := "Анна" }, .actionNewComment 0 10, .actionReting 0 5, .actionReting 0 4,
    .edited 0 "Спасибо", .actionSendComment 0 20, .added 0 0 "1", .openComments 1,
    .getDocuments 1 0, .answered 1 0]

def noComments : Comments where
  collection := []
  devices _ := .running ⟨Table.empty, none, none, 0, []⟩
  adding := []
  presses := []

theorem comments_as_sent_four : ∃ (s : Comments) (screen : CommentsScreen),
    screen.rows = [⟨"Анна", "Спасибо", 20, [true, true, true, true, false]⟩] ∧
      screen.rows.Subperm (s.presses.map Prod.snd) := by
  have hrun : (comments.exec noComments commentEvents).bind (fun s =>
      (s.devices 1).running?.bind (fun d => d.reading.map (fun screen => screen.rows)))
        = some [⟨"Анна", "Спасибо", 20, [true, true, true, true, false]⟩] := by decide +kernel
  obtain ⟨s, hs, hrows⟩ := Option.bind_eq_some_iff.mp hrun
  obtain ⟨d, hd, hrows⟩ := Option.bind_eq_some_iff.mp hrows
  obtain ⟨screen, hscreen, hrows⟩ := Option.map_eq_some_iff.mp hrows
  have hd : s.devices 1 = .running d := by
    cases hdevice : s.devices 1 with
    | running d' =>
        rw [hdevice] at hd
        rw [Option.some.inj hd]
    | trapped =>
        rw [hdevice] at hd
        cases hd
  have h0 : comments.init noComments := ⟨rfl, rfl, rfl, fun _ => ⟨_, _, rfl⟩⟩
  exact ⟨s, screen, hrows,
    (comments_as_sent s (EventMachine.reachable_of_exec _ h0 hs) 1 d hd screen hscreen).1⟩

end Flamingo
