import Flamingo.Lib.Balance
import Flamingo.Lib.Prefixes
import Flamingo.AccauntPage.SampleServiceEmptyVC
import Flamingo.PresentService.Submission

set_option autoImplicit false

/-! # Appointments on the device and in Firestore

An appointment is saved on the device when its document has been added. A cancellation asks for the
deletion of the document and deletes the entry at once, whatever the answer will be. The process ends
when a handler traps: a second document of one screen has been added, a filled form is pressed on a
screen whose entry is saved, or an entry is cancelled again. The server may still deal with what it
has been asked for, but no handler runs any more. The two stores have the same ids, when no request
is in flight, exactly as long as no deletion has failed and no handler of an added document is lost.

Firestore generates ids that it has not generated before.
-/

namespace Flamingo

inductive EntryRequest
  /-- the document of an appointment, with the screen that has its entry -/
  | add (screen : Nat) (document : Document)
  | delete (id : String)

/-- What a request changes on the server, if it succeeds. -/
def EntryRequest.apply (documents : List Document) : EntryRequest → List Document
  | .add _ document => addDocument documents document.documentID document.data
  | .delete id => deleteDoc documents id

structure EntryStores where
  entries : Table ServiceEntry
  /-- the entries that the appointment screens own -/
  screens : Nat → ManagedObject ServiceEntry
  /-- the documents that this device has added to `service_enrty` and that still exist -/
  documents : List Document
  /-- the ids that Firestore has generated -/
  generated : List String
  requests : List EntryRequest
  /-- the requests that the server has dealt with and whose handlers have not run -/
  answers : List (EntryRequest × Bool)
  /-- a handler has trapped -/
  ended : Bool

inductive EntryEvent
  | makeAppointment (screen : Nat) (form : MakeAppointmentVC) (documentID : String)
  /-- a cancellation is confirmed for a row of the list of appointments -/
  | cencelEntry (list : SampleServiceEmptyVC) (row : Nat)
  | answer (i : Nat) (success : Bool)
  | receive (i : Nat)

namespace EntryStores

def makeAppointment (s : EntryStores) (screen : Nat) (form : MakeAppointmentVC)
    (documentID : String) : Option EntryStores :=
  match form.submit (s.screens screen) with
  | .ok none => some s
  | .ok (some serviceEntry) => some { s with
      screens := Function.update s.screens screen serviceEntry
      generated := documentID :: s.generated
      requests := s.requests ++
        [.add screen ⟨documentID, saveServiceEntryToFirebase serviceEntry.fields⟩] }
  | .error _ => none

def cencelEntry (s : EntryStores) (list : SampleServiceEmptyVC) (row : Nat) :
    Option EntryStores := do
  let (document, list) ← SampleServiceEmptyVC.cencelEntry { list with entries := s.entries } row
  -- the local deletion does not wait for the answer
  some { s with entries := list.entries, requests := s.requests ++ [.delete document.id] }

def answer (s : EntryStores) (i : Nat) (success : Bool) : Option EntryStores := do
  let request ← s.requests[i]?
  some { s with
    documents := if success then request.apply s.documents else s.documents
    requests := s.requests.eraseIdx i
    answers := s.answers ++ [(request, success)] }

/-- Only the handler of a document that has been added does anything. -/
def receive (s : EntryStores) (i : Nat) : Option EntryStores := do
  let answer ← s.answers[i]?
  let s := { s with answers := s.answers.eraseIdx i }
  match answer with
  | (.add screen document, true) =>
      match MakeAppointmentVC.entryAdded s.entries (s.screens screen) document.documentID with
      | .ok (entries, serviceEntry) => some { s with
          entries, screens := Function.update s.screens screen serviceEntry }
      | .error _ => none
  | _ => some s

/-- A new id, a row of the list, a request and an answer. -/
def occurs (s : EntryStores) : EntryEvent → Bool
  | .makeAppointment _ _ documentID => decide (documentID ∉ s.generated)
  | .cencelEntry list row => decide (row < list.arrayServiceEntrySample.length)
  | .answer i _ => decide (i < s.requests.length)
  | .receive i => decide (i < s.answers.length)

/-- What an event does; `none` where a handler traps. -/
def handle (s : EntryStores) : EntryEvent → Option EntryStores
  | .makeAppointment screen form documentID => s.makeAppointment screen form documentID
  | .cencelEntry list row => s.cencelEntry list row
  | .answer i success => s.answer i success
  | .receive i => s.receive i

/-- No handler is going to run. -/
def forget (s : EntryStores) : EntryStores := { s with answers := [] }

def step (s : EntryStores) (e : EntryEvent) : Option EntryStores :=
  if s.occurs e then
    if s.ended then
      match e with
      | .answer i success => (s.answer i success).map forget
      | .makeAppointment _ _ _ | .cencelEntry _ _ | .receive _ => none
    else some ((s.handle e).getD { s.forget with ended := true })
  else none

/-- The ids of the entries on the device. -/
def ids (s : EntryStores) : List String := s.entries.objects.map (·.2.id)

def documentIDs (s : EntryStores) : List String := s.documents.map (·.documentID)

/-- The two stores have the same ids, each once. -/
def Agree (s : EntryStores) : Prop := s.ids.Perm s.documentIDs ∧ s.ids.Nodup

/-- The deletion of a document does not fail. -/
def DeletionSucceeds (s : EntryStores) : EntryEvent → Prop
  | .answer i success => success = false → ∀ id, s.requests[i]? ≠ some (.delete id)
  | _ => True

/-- The event is one at which a handler traps. -/
def Traps (s : EntryStores) : EntryEvent → Prop
  | .makeAppointment screen form _ => form.filled = true ∧
      ((s.screens screen).key.isSome ∨ form.arrayMaster[form.getIdMasterEntry]? = none)
  | .cencelEntry list row => ∀ key ∈ list.arrayServiceEntrySample[row]?, s.entries.read key = none
  | .answer _ _ => False
  | .receive i => ∃ screen document, s.answers[i]? = some (.add screen document, true) ∧
      (s.screens screen).key.isSome

/-! ## What is on its way -/

end EntryStores

namespace EntryRequest

/-- The id of the document that is to be deleted. -/
def removes : EntryRequest → List String
  | .add _ _ => []
  | .delete id => [id]

/-- The id of the document that is to be added. -/
def adds : EntryRequest → List String
  | .add _ document => [document.documentID]
  | .delete _ => []

end EntryRequest

namespace EntryStores

/-- The id of a document that exists and is not on the device yet. -/
def unsaved (answer : EntryRequest × Bool) : List String := if answer.2 then answer.1.adds else []

/-- The ids on the device, those whose deletion the server has not seen, and those that have not
been saved yet. -/
def held (s : EntryStores) : Multiset String :=
  ↑s.ids + ↑(s.requests.flatMap EntryRequest.removes) + ↑(s.answers.flatMap unsaved)

def remote (s : EntryStores) : Multiset String := ↑s.documentIDs

/-- The ids of the documents that the server has not seen. -/
def awaited (s : EntryStores) : Multiset String := ↑(s.requests.flatMap EntryRequest.adds)

/-- The process does not end while an added document waits for its handler, and after it has ended
none is added. -/
def SavesAdded (s : EntryStores) : EntryEvent → Prop
  | .answer i success => s.ended = true → success = true →
      ∀ screen document, s.requests[i]? ≠ some (.add screen document)
  | e => s.Traps e → s.answers.flatMap unsaved = []

/-- The device holds no more than the server has, and the ids are different and have been
generated. -/
structure EntryInv (s : EntryStores) : Prop where
  le : s.held ≤ s.remote
  nodup : (s.remote + s.awaited).Nodup
  known : ∀ id ∈ s.remote + s.awaited, id ∈ s.generated
  ended : s.ended = true → s.answers = []

end EntryStores

/-- Any number of screens, from stores that agree. -/
def entryStores : EventMachine EntryStores EntryEvent where
  init s := s.Agree ∧ (∀ id ∈ s.ids, id ∈ s.generated) ∧ (∀ screen, (s.screens screen).key = none) ∧
    s.requests = [] ∧ s.answers = [] ∧ s.ended = false
  step := EntryStores.step

namespace EntryStores

/-! ## What a step is -/

theorem handle_eq_none_iff {s : EntryStores} {e : EntryEvent} (h : s.occurs e = true) :
    s.handle e = none ↔ s.Traps e := by
  cases e with
  | makeAppointment screen form documentID =>
      rw [Traps, ← MakeAppointmentVC.submit_eq_error_iff, handle, makeAppointment]
      split
      · rename_i hsubmit
        rw [hsubmit]
        exact iff_of_false (Option.some_ne_none _) (by rintro ⟨t, ht⟩; cases ht)
      · rename_i hsubmit
        rw [hsubmit]
        exact iff_of_false (Option.some_ne_none _) (by rintro ⟨t, ht⟩; cases ht)
      · rename_i t hsubmit
        exact iff_of_true rfl ⟨t, hsubmit⟩
  | cencelEntry list row =>
      obtain ⟨key, hkey⟩ : ∃ key, list.arrayServiceEntrySample[row]? = some key :=
        ⟨_, List.getElem?_eq_getElem (of_decide_eq_true h)⟩
      simp only [handle, cencelEntry, SampleServiceEmptyVC.cencelEntry, Traps, hkey,
        Option.bind_eq_bind, Option.bind_some, Option.mem_def, Option.some.injEq, forall_eq']
      cases s.entries.read key <;> simp
  | answer i success =>
      rw [handle, answer, List.getElem?_eq_getElem (of_decide_eq_true h)]
      exact iff_of_false (Option.some_ne_none _) not_false
  | receive i =>
      obtain ⟨answer, hanswer⟩ : ∃ answer, s.answers[i]? = some answer :=
        ⟨_, List.getElem?_eq_getElem (of_decide_eq_true h)⟩
      simp only [handle, receive, Traps, hanswer, Option.bind_eq_bind, Option.bind_some]
      split
      · rename_i screen document
        rw [MakeAppointmentVC.entryAdded_eq]
        split_ifs with hsaved
        · exact iff_of_true rfl ⟨screen, document, rfl, hsaved⟩
        · refine iff_of_false not_false ?_
          rintro ⟨screen', document', heq, hsaved'⟩
          obtain ⟨heq, -⟩ := Prod.mk.inj (Option.some.inj heq)
          obtain ⟨rfl, rfl⟩ := EntryRequest.add.inj heq
          exact hsaved hsaved'
      · rename_i hother
        refine iff_of_false (Option.some_ne_none _) ?_
        rintro ⟨screen, document, heq, -⟩
        exact hother screen document (Option.some.inj heq)

/-- **What a step is**: a handler that runs, one that traps, or an answer to a process that has
ended. -/
theorem step_cases {s s' : EntryStores} {e : EntryEvent} (h : s.step e = some s') :
    (s.ended = false ∧ s.occurs e = true ∧ s.handle e = some s') ∨
    (s.ended = false ∧ s.occurs e = true ∧ s.Traps e ∧ s' = { s.forget with ended := true }) ∨
    (s.ended = true ∧ ∃ i success, e = .answer i success ∧
      ∃ t, s.answer i success = some t ∧ s' = t.forget) := by
  unfold step at h
  split_ifs at h with hoccurs hended
  · right
    right
    cases e with
    | answer i success =>
        obtain ⟨t, ht, rfl⟩ := Option.map_eq_some_iff.mp h
        exact ⟨hended, i, success, rfl, t, ht, rfl⟩
    | makeAppointment _ _ _ | cencelEntry _ _ | receive _ => cases h
  · have hended : s.ended = false := Bool.eq_false_iff.mpr hended
    obtain rfl := Option.some.inj h
    cases hhandle : s.handle e with
    | none => exact Or.inr (Or.inl ⟨hended, hoccurs, (handle_eq_none_iff hoccurs).mp hhandle, rfl⟩)
    | some t => exact Or.inl ⟨hended, hoccurs, rfl⟩

/-! ## One step -/

/-- What a handler does to the two stores: both change alike, but for what the device forgets when a
deletion has failed. -/
def Moves (s s' : EntryStores) (e : EntryEvent) : Prop :=
  ∃ lost : Multiset String, Balance.Alike s.held s.remote (lost + s'.held) s'.remote ∧
    (lost = 0 ↔ s.DeletionSucceeds e)

theorem moves_of_alike {s s' : EntryStores} {e : EntryEvent} (hc : s.DeletionSucceeds e)
    (h : Balance.Alike s.held s.remote s'.held s'.remote) : Moves s s' e :=
  ⟨0, by rwa [zero_add], iff_of_true rfl hc⟩

theorem moves_of_eq {s s' : EntryStores} {e : EntryEvent} (hc : s.DeletionSucceeds e)
    (hheld : s'.held = s.held) (hremote : s'.remote = s.remote) : Moves s s' e :=
  moves_of_alike hc (by rw [hheld, hremote]; exact Balance.Alike.refl _ _)

/-- **A press** asks for a document with a new id. -/
theorem moves_makeAppointment {s s' : EntryStores} {screen : Nat} {form : MakeAppointmentVC}
    {documentID : String} (h : s.makeAppointment screen form documentID = some s') :
    Moves s s' (.makeAppointment screen form documentID) ∧ s'.remote = s.remote ∧
      ((s'.awaited = s.awaited ∧ s'.generated = s.generated) ∨
        (s'.awaited = documentID ::ₘ s.awaited ∧ s'.generated = documentID :: s.generated)) := by
  unfold makeAppointment at h
  split at h
  · obtain rfl := Option.some.inj h
    exact ⟨moves_of_eq trivial rfl rfl, rfl, Or.inl ⟨rfl, rfl⟩⟩
  · obtain rfl := Option.some.inj h
    refine ⟨moves_of_eq trivial ?_ rfl, rfl, Or.inr ⟨?_, rfl⟩⟩
    · simp only [held, ids, List.flatMap_append, List.flatMap_singleton, EntryRequest.removes,
        List.append_nil]
    · simp only [awaited, List.flatMap_append, List.flatMap_singleton, EntryRequest.adds]
      exact Balance.coe_append_singleton _ documentID
  · cases h

/-- **A cancellation** turns an entry into a request. -/
theorem moves_cencelEntry {s s' : EntryStores} {list : SampleServiceEmptyVC} {row : Nat}
    (h : s.cencelEntry list row = some s') :
    Moves s s' (.cencelEntry list row) ∧ s'.remote = s.remote ∧ s'.awaited = s.awaited ∧
      s'.generated = s.generated := by
  simp only [cencelEntry, Option.bind_eq_bind] at h
  obtain ⟨⟨d, list'⟩, hcancel, h⟩ := Option.bind_eq_some_iff.mp h
  obtain ⟨key, sample, -, hread, rfl, rfl⟩ := SampleServiceEmptyVC.cencelEntry_eq_some hcancel
  obtain rfl := Option.some.inj h
  refine ⟨moves_of_eq trivial ?_ rfl, rfl, ?_, rfl⟩
  · have hids := Multiset.coe_eq_coe.mpr ((Table.perm_deleteObjectRealm hread).map (fun o => o.2.id))
    rw [List.map_cons, ← Multiset.cons_coe] at hids
    have hrequests := Balance.coe_append_singleton (s.requests.flatMap EntryRequest.removes) sample.id
    -- the id of the entry is that of the request
    simp only [held, ids, List.flatMap_append, List.flatMap_singleton, EntryRequest.removes, hids,
      hrequests]
    simp only [Multiset.add_cons, Multiset.cons_add]
  · simp only [awaited, List.flatMap_append, List.flatMap_singleton, EntryRequest.adds,
      List.append_nil]

/-- What an answered request was worth. -/
theorem held_answer {s : EntryStores} {i : Nat} {request : EntryRequest}
    (hrequest : s.requests[i]? = some request) (success : Bool) (documents : List Document) :
    s.held + ↑(unsaved (request, success))
      = ↑request.removes + held { s with
          documents, requests := s.requests.eraseIdx i, answers := s.answers ++ [(request, success)] } := by
  have hremoves := Balance.coe_flatMap_eraseIdx hrequest EntryRequest.removes
  calc s.held + ↑(unsaved (request, success))
      = ↑s.ids + (↑request.removes + ↑((s.requests.eraseIdx i).flatMap EntryRequest.removes))
          + ↑(s.answers.flatMap unsaved) + ↑(unsaved (request, success)) := by
        rw [held, hremoves]
    _ = ↑request.removes + (↑s.ids + ↑((s.requests.eraseIdx i).flatMap EntryRequest.removes)
          + (↑(s.answers.flatMap unsaved) + ↑(unsaved (request, success)))) := by abel
    _ = ↑request.removes + held { s with
          documents, requests := s.requests.eraseIdx i, answers := s.answers ++ [(request, success)] } := by
        simp only [held, ids, List.flatMap_append, List.flatMap_singleton, ← Multiset.coe_add]

theorem awaited_answer {s : EntryStores} {i : Nat} {request : EntryRequest}
    (hrequest : s.requests[i]? = some request) (documents : List Document)
    (answers : List (EntryRequest × Bool)) :
    s.awaited = ↑request.adds + awaited { s with
      documents, requests := s.requests.eraseIdx i, answers } :=
  Balance.coe_flatMap_eraseIdx hrequest EntryRequest.adds

/-- A document that is deleted is taken away from the ids. -/
theorem coe_documentIDs_deleteDoc {documents : List Document} {id : String}
    (hnodup : (documents.map (·.documentID)).Nodup) (hid : id ∈ documents.map (·.documentID)) :
    (↑(documents.map (·.documentID)) : Multiset String)
      = id ::ₘ ↑((deleteDoc documents id).map (·.documentID)) := by
  have hrest : (deleteDoc documents id).map (·.documentID)
      = (documents.map (·.documentID)).erase id := by
    rw [hnodup.erase_eq_filter, List.filter_map, deleteDoc]
    rfl
  rw [hrest, Multiset.cons_coe]
  exact Multiset.coe_eq_coe.mpr (List.perm_cons_erase hid)

/-- **An answer** of the server. -/
theorem moves_answer {s s' : EntryStores} {i : Nat} {success : Bool} (hi : s.EntryInv)
    (h : s.answer i success = some s') :
    Moves s s' (.answer i success) ∧ s'.remote + s'.awaited ≤ s.remote + s.awaited ∧
      s'.generated = s.generated := by
  simp only [answer, Option.bind_eq_bind] at h
  obtain ⟨request, hrequest, h⟩ := Option.bind_eq_some_iff.mp h
  obtain rfl := Option.some.inj h
  have hheld := held_answer hrequest success
    (if success then request.apply s.documents else s.documents)
  have hawaited := awaited_answer hrequest
    (if success then request.apply s.documents else s.documents) (s.answers ++ [(request, success)])
  cases request with
  | add screen document =>
      -- what the server makes of an added document, the device gets to know
      have hc : s.DeletionSucceeds (.answer i success) := by
        intro _ id hdelete
        rw [hrequest] at hdelete
        cases hdelete
      cases success with
      | true =>
          have hremote : remote { s with
              documents := EntryRequest.apply s.documents (.add screen document)
              requests := s.requests.eraseIdx i, answers := s.answers ++ [(.add screen document, true)] }
              = document.documentID ::ₘ s.remote := by
            simp only [remote, documentIDs, EntryRequest.apply, addDocument, List.map_append,
              List.map_singleton]
            exact Balance.coe_append_singleton _ document.documentID
          simp only [unsaved, EntryRequest.adds, EntryRequest.removes, if_true,
            Multiset.coe_singleton, Multiset.coe_nil, zero_add] at hheld hawaited ⊢
          refine ⟨moves_of_alike hc ?_, ?_, trivial⟩
          · rw [hremote, ← hheld, add_comm, Multiset.singleton_add]
            exact Balance.Alike.cons _ _ _
          · rw [hremote, hawaited, Multiset.cons_add, Multiset.singleton_add, Multiset.add_cons]
      | false =>
          simp only [unsaved, EntryRequest.removes, Bool.false_eq_true, if_false,
            Multiset.coe_nil, zero_add, add_zero] at hheld hawaited ⊢
          refine ⟨moves_of_eq hc hheld.symm rfl, ?_, trivial⟩
          rw [hawaited]
          exact add_le_add_right (Multiset.le_add_left _ _) s.remote
  | delete id =>
      simp only [unsaved, EntryRequest.adds, EntryRequest.removes, ite_self, Multiset.coe_singleton,
        Multiset.coe_nil, zero_add, add_zero, Multiset.singleton_add] at hheld hawaited
      cases success with
      | true =>
          -- the id is taken from what the device still owes and from the documents
          have hc : s.DeletionSucceeds (.answer i true) := nofun
          have hid : id ∈ s.remote := Multiset.mem_of_le hi.le (hheld ▸ Multiset.mem_cons_self _ _)
          have hremote : s.remote = id ::ₘ remote { s with
              documents := EntryRequest.apply s.documents (.delete id)
              requests := s.requests.eraseIdx i, answers := s.answers ++ [(.delete id, true)] } :=
            coe_documentIDs_deleteDoc (Multiset.nodup_of_le (Multiset.le_add_right _ _) hi.nodup) hid
          refine ⟨moves_of_alike hc (Balance.Alike.symm ?_), ?_, rfl⟩
          · rw [hheld, hremote]
            exact Balance.Alike.cons _ _ _
          · rw [hawaited, hremote]
            exact add_le_add (Multiset.le_cons_self _ _) (le_refl _)
      | false =>
          -- the entry is gone from the device all the same
          have hfails : ¬ s.DeletionSucceeds (.answer i false) :=
            fun hc => hc rfl id hrequest
          refine ⟨⟨{id}, ?_, iff_of_false (Multiset.singleton_ne_zero id) hfails⟩, ?_, rfl⟩
          · rw [hheld, ← Multiset.singleton_add]
            exact Balance.Alike.refl _ _
          · rw [hawaited]
            exact le_refl _

/-- **A handler** saves the entry of a document that has been added. -/
theorem moves_receive {s s' : EntryStores} {i : Nat} (h : s.receive i = some s') :
    Moves s s' (.receive i) ∧ s'.remote = s.remote ∧ s'.awaited = s.awaited ∧
      s'.generated = s.generated := by
  simp only [receive, Option.bind_eq_bind] at h
  obtain ⟨answer, hanswer, h⟩ := Option.bind_eq_some_iff.mp h
  have hunsaved := Balance.coe_flatMap_eraseIdx hanswer unsaved
  split at h
  · rename_i screen document
    rw [MakeAppointmentVC.entryAdded_eq] at h
    split_ifs at h with hsaved
    obtain rfl := Option.some.inj h
    refine ⟨moves_of_eq trivial ?_ rfl, rfl, rfl, rfl⟩
    simp only [held, ids, hunsaved, Table.saveObjectRealm, List.map_append, List.map_singleton]
    simp only [unsaved, EntryRequest.adds, if_true]
    rw [← Multiset.coe_add]
    abel
  · rename_i hother
    obtain rfl := Option.some.inj h
    -- no other handler touches the device, and no other answer counts
    have hnothing : unsaved answer = [] := by
      obtain ⟨request, success⟩ := answer
      cases success with
      | false => rfl
      | true =>
          cases request with
          | add screen document => exact absurd rfl (hother screen document)
          | delete id => rfl
    refine ⟨moves_of_eq trivial ?_ rfl, rfl, rfl, rfl⟩
    simp only [held, ids, hunsaved, hnothing, Multiset.coe_nil, zero_add]

/-- **A handler that runs**: how the stores move, and that the ids stay different. -/
theorem moves_handle {s s' : EntryStores} {e : EntryEvent} (hi : s.EntryInv)
    (hoccurs : s.occurs e = true) (h : s.handle e = some s') :
    Moves s s' e ∧ (s'.remote + s'.awaited).Nodup ∧ ∀ id ∈ s'.remote + s'.awaited, id ∈ s'.generated := by
  cases e with
  | makeAppointment screen form documentID =>
      obtain ⟨hmoves, hremote, hcase⟩ := moves_makeAppointment h
      refine ⟨hmoves, ?_⟩
      rcases hcase with ⟨hawaited, hgenerated⟩ | ⟨hawaited, hgenerated⟩
      · rw [hremote, hawaited, hgenerated]
        exact ⟨hi.nodup, hi.known⟩
      · have hnew : documentID ∉ s.generated := of_decide_eq_true hoccurs
        rw [hremote, hawaited, hgenerated, Multiset.add_cons, Multiset.nodup_cons]
        refine ⟨⟨fun hmem => hnew (hi.known documentID hmem), hi.nodup⟩, ?_⟩
        intro id hid
        rcases Multiset.mem_cons.mp hid with rfl | hid
        · exact List.mem_cons_self
        · exact List.mem_cons_of_mem _ (hi.known id hid)
  | cencelEntry list row =>
      obtain ⟨hmoves, hremote, hawaited, hgenerated⟩ := moves_cencelEntry h
      rw [hremote, hawaited, hgenerated]
      exact ⟨hmoves, hi.nodup, hi.known⟩
  | answer i success =>
      obtain ⟨hmoves, hle, hgenerated⟩ := moves_answer hi h
      rw [hgenerated]
      exact ⟨hmoves, Multiset.nodup_of_le hle hi.nodup, fun id hid => hi.known id (Multiset.mem_of_le hle hid)⟩
  | receive i =>
      obtain ⟨hmoves, hremote, hawaited, hgenerated⟩ := moves_receive h
      rw [hremote, hawaited, hgenerated]
      exact ⟨hmoves, hi.nodup, hi.known⟩

theorem ended_handle {s s' : EntryStores} {e : EntryEvent} (h : s.handle e = some s') :
    s'.ended = s.ended := by
  cases e with
  | makeAppointment screen form documentID =>
      simp only [handle, makeAppointment] at h
      split at h
      · exact Option.some.inj h ▸ rfl
      · exact Option.some.inj h ▸ rfl
      · cases h
  | cencelEntry list row =>
      obtain ⟨_, -, h⟩ := Option.bind_eq_some_iff.mp h
      exact Option.some.inj h ▸ rfl
  | answer i success =>
      obtain ⟨_, -, h⟩ := Option.bind_eq_some_iff.mp h
      exact Option.some.inj h ▸ rfl
  | receive i =>
      obtain ⟨answer, -, h⟩ := Option.bind_eq_some_iff.mp h
      dsimp only at h
      split at h
      · rw [MakeAppointmentVC.entryAdded_eq] at h
        split_ifs at h
        exact Option.some.inj h ▸ rfl
      · exact Option.some.inj h ▸ rfl

/-- What is forgotten with the answers. -/
theorem held_forget (s : EntryStores) : s.held = ↑(s.answers.flatMap unsaved) + s.forget.held := by
  simp only [held, forget, ids, List.flatMap_nil, Multiset.coe_nil, add_zero]
  rw [add_comm]

/-- Until the process ends, an event with no trap saves what has been added. -/
theorem savesAdded_of_handle {s s' : EntryStores} {e : EntryEvent} (hended : s.ended = false)
    (hoccurs : s.occurs e = true) (h : s.handle e = some s') : s.SavesAdded e := by
  have hno : ¬ s.Traps e := by
    rw [← handle_eq_none_iff hoccurs, h]
    exact nofun
  cases e with
  | answer i success =>
      intro htrue
      rw [hended] at htrue
      cases htrue
  | makeAppointment _ _ _ | cencelEntry _ _ | receive _ => exact fun htraps => absurd htraps hno

theorem savesAdded_of_traps {s : EntryStores} {e : EntryEvent} (h : s.Traps e) :
    s.DeletionSucceeds e ∧ (s.SavesAdded e ↔ s.answers.flatMap unsaved = []) := by
  cases e with
  | answer i success => exact absurd h not_false
  | makeAppointment _ _ _ | cencelEntry _ _ | receive _ =>
      exact ⟨trivial, fun hsaves => hsaves h, fun hnil _ => hnil⟩

/-- An answer that comes when the process has ended is forgotten at once. -/
theorem lost_answer {s t : EntryStores} {i : Nat} {success : Bool} (hended : s.ended = true)
    (hanswers : s.answers = []) (h : s.answer i success = some t) :
    t.answers.flatMap unsaved = [] ↔ s.SavesAdded (.answer i success) := by
  simp only [answer, Option.bind_eq_bind] at h
  obtain ⟨request, hrequest, h⟩ := Option.bind_eq_some_iff.mp h
  obtain rfl := Option.some.inj h
  simp only [SavesAdded, hended, forall_const, hanswers, List.nil_append, List.flatMap_singleton,
    unsaved, hrequest, ne_eq, Option.some.injEq]
  cases success with
  | false => exact iff_of_true rfl nofun
  | true =>
      cases request with
      | add screen document =>
          exact iff_of_false (List.cons_ne_nil _ _) (fun hno => hno rfl screen document rfl)
      | delete id => exact iff_of_true rfl (fun _ _ _ => nofun)

/-- **One step**: both stores change alike, but for what the device forgets. -/
theorem moves_step {s s' : EntryStores} {e : EntryEvent} (hi : s.EntryInv)
    (h : s.step e = some s') :
    ∃ lost : Multiset String, Balance.Alike s.held s.remote (lost + s'.held) s'.remote ∧
      (lost = 0 ↔ s.DeletionSucceeds e ∧ s.SavesAdded e) := by
  rcases step_cases h with ⟨hended, hoccurs, hhandle⟩ | ⟨-, -, htraps, rfl⟩ |
    ⟨hended, i, success, rfl, t, ht, rfl⟩
  · obtain ⟨⟨lost, halike, hlost⟩, -, -⟩ := moves_handle hi hoccurs hhandle
    refine ⟨lost, halike, hlost.trans ?_⟩
    exact (and_iff_left (savesAdded_of_handle hended hoccurs hhandle)).symm
  · obtain ⟨hdeletion, hsaves⟩ := savesAdded_of_traps htraps
    refine ⟨↑(s.answers.flatMap unsaved), ?_, ?_⟩
    · show Balance.Alike s.held s.remote (_ + s.forget.held) s.remote
      rw [← held_forget]
      exact Balance.Alike.refl _ _
    · rw [and_iff_right hdeletion, hsaves, Multiset.coe_eq_zero]
  · obtain ⟨⟨lost, halike, hlost⟩, -, -⟩ := moves_answer hi ht
    refine ⟨lost + ↑(t.answers.flatMap unsaved), ?_, ?_⟩
    · show Balance.Alike s.held s.remote (_ + t.forget.held) t.remote
      rw [add_assoc, ← held_forget]
      exact halike
    · rw [add_eq_zero_iff_of_nonneg (Multiset.zero_le _) (Multiset.zero_le _), hlost,
        Multiset.coe_eq_zero, lost_answer hended (hi.ended hended) ht]

theorem entryInv_step {s s' : EntryStores} {e : EntryEvent} (hi : s.EntryInv)
    (h : s.step e = some s') : s'.EntryInv := by
  obtain ⟨lost, halike, -⟩ := moves_step hi h
  have hle := halike.le_of_lost hi.le
  rcases step_cases h with ⟨hended, hoccurs, hhandle⟩ | ⟨-, -, -, rfl⟩ |
    ⟨hended, i, success, rfl, t, ht, rfl⟩
  · obtain ⟨-, hnodup, hknown⟩ := moves_handle hi hoccurs hhandle
    refine ⟨hle, hnodup, hknown, fun htrue => ?_⟩
    rw [ended_handle hhandle, hended] at htrue
    cases htrue
  · exact ⟨hle, hi.nodup, hi.known, fun _ => rfl⟩
  · obtain ⟨-, hnarrow, hgenerated⟩ := moves_answer hi ht
    refine ⟨hle, Multiset.nodup_of_le hnarrow hi.nodup, ?_, fun _ => rfl⟩
    show ∀ id ∈ t.remote + t.awaited, id ∈ t.generated
    rw [hgenerated]
    exact fun id hid => hi.known id (Multiset.mem_of_le hnarrow hid)

/-- **The stores stay in balance** exactly if no deletion fails and no added document is forgotten. -/
theorem balanced_step {s s' : EntryStores} {e : EntryEvent} (hi : s.EntryInv)
    (h : s.step e = some s') :
    s'.held = s'.remote ↔ s.held = s.remote ∧ s.DeletionSucceeds e ∧ s.SavesAdded e := by
  obtain ⟨lost, halike, hlost⟩ := moves_step hi h
  rw [halike.eq_iff_of_lost hi.le, hlost]

theorem entryInv_init {s : EntryStores} (h : entryStores.init s) :
    s.EntryInv ∧ s.held = s.remote := by
  obtain ⟨⟨hperm, hnodup⟩, hknown, -, hrequests, hanswers, -⟩ := h
  have heq : s.held = s.remote := by
    simp only [held, remote, hrequests, hanswers, List.flatMap_nil, Multiset.coe_nil, add_zero]
    exact Multiset.coe_eq_coe.mpr hperm
  have hawaited : s.awaited = 0 := by
    rw [awaited, hrequests]
    rfl
  refine ⟨⟨le_of_eq heq, ?_, ?_, fun _ => hanswers⟩, heq⟩
  · rw [hawaited, add_zero]
    exact Multiset.coe_nodup.mpr (hperm.nodup hnodup)
  · rw [hawaited, add_zero]
    exact fun id hid => hknown id (hperm.mem_iff.mpr hid)

/-- With nothing in flight the stores agree if they are in balance. -/
theorem agree_iff {s : EntryStores} (hi : s.EntryInv) (hrequests : s.requests = [])
    (hanswers : s.answers = []) : s.Agree ↔ s.held = s.remote := by
  have hheld : s.held = ↑s.ids := by
    simp only [held, hrequests, hanswers, List.flatMap_nil, Multiset.coe_nil, add_zero]
  rw [hheld, remote, Multiset.coe_eq_coe]
  constructor
  · exact fun h => h.1
  · intro hperm
    have hnodup : s.documentIDs.Nodup :=
      Multiset.coe_nodup.mp (Multiset.nodup_of_le (Multiset.le_add_right _ _) hi.nodup)
    exact ⟨hperm, hperm.symm.nodup hnodup⟩

end EntryStores

/-! ## The runs -/

/-- A device without appointments. -/
def noAppointments : EntryStores where
  entries := Table.empty
  screens _ := ⟨{ dttmEntry := 0 }, none⟩
  documents := []
  generated := []
  requests := []
  answers := []
  ended := false

theorem init_noAppointments : entryStores.init noAppointments := by
  refine ⟨⟨?_, ?_⟩, ?_, fun _ => rfl, rfl, rfl, rfl⟩
  · decide
  · decide
  · decide

/-- The list of appointments with the first entry. -/
def firstListed : SampleServiceEmptyVC :=
  { SampleServiceEmptyVC.viewDidLoad Table.empty [] [] 0 with arrayServiceEntrySample := [0] }

/-- Two appointments are made and the first one is cancelled, with the outcome of its deletion. -/
def cancelledEvents (success : Bool) : List EntryEvent :=
  [.makeAppointment 0 filledForm "first", .answer 0 true, .receive 0,
    .makeAppointment 1 filledForm "second", .answer 0 true, .receive 0,
    .cencelEntry firstListed 0, .answer 0 success, .receive 0]

-- two presses on one screen: the handler of the second document writes into the saved entry
example : (entryStores.exec noAppointments
    [.makeAppointment 0 filledForm "first", .makeAppointment 0 filledForm "second",
      .answer 0 true, .answer 0 true, .receive 0, .receive 0]).map
    (fun s => (s.ids, s.documentIDs, s.ended)) = some (["first"], ["first", "second"], true) := by
  decide

end Flamingo
