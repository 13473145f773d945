import Flamingo.AccauntPage.EntryStores

set_option autoImplicit false

/-! # Any number of devices with appointments

The devices share the collection `service_enrty`. `EntryStores` has one device with the documents
that it has added itself; here the requests of every device change one collection, in any order.

A device deletes no document but its own: the id of a document is given to one device only, and a
cancellation deletes the document of an entry of the device. So what happens to the appointments of
a device is a run of that device alone (`devices_apart`), and an appointment that is listed on a
device stays, with its document, until it is cancelled there (`listed_iff_notCancelled`).
-/

namespace Flamingo

/-- What a device has of its own. -/
structure EntryDevice where
  entries : Table ServiceEntry
  screens : Nat → ManagedObject ServiceEntry
  requests : List EntryRequest
  answers : List (EntryRequest × Bool)
  ended : Bool

namespace EntryDevice

/-- The ids of the entries on the device. -/
def ids (device : EntryDevice) : List String := device.entries.objects.map (·.2.id)

/-- The device with the documents that its requests change. -/
def stores (device : EntryDevice) (documents : List Document) (generated : List String) :
    EntryStores where
  entries := device.entries
  screens := device.screens
  documents := documents
  generated := generated
  requests := device.requests
  answers := device.answers
  ended := device.ended

end EntryDevice

def EntryStores.device (s : EntryStores) : EntryDevice where
  entries := s.entries
  screens := s.screens
  requests := s.requests
  answers := s.answers
  ended := s.ended

structure EntryService where
  /-- `service_enrty` -/
  documents : List Document
  /-- the ids that Firestore has generated -/
  generated : List String
  devices : Nat → EntryDevice

namespace EntryService

def documentIDs (s : EntryService) : List String := s.documents.map (·.documentID)

/-- A step of one device, on the documents of all. -/
def step (s : EntryService) (e : Nat × EntryEvent) : Option EntryService := do
  let stores ← ((s.devices e.1).stores s.documents s.generated).step e.2
  some
    { documents := stores.documents
      generated := stores.generated
      devices := Function.update s.devices e.1 stores.device }

/-- The documents with some of the ids. -/
def documentsOf (ids : List String) (documents : List Document) : List Document :=
  documents.filter (fun d => d.documentID ∈ ids)

/-- A device without the others: the ids that it has been given, and the documents with them. -/
def alone (s : EntryService) (given : Nat → List String) (i : Nat) : EntryStores :=
  (s.devices i).stores (documentsOf (given i) s.documents) (given i)

/-- The ids of the entries on the devices. -/
def listed (s : EntryService) (i : Nat) : List String := (s.devices i).ids

/-- No request is in flight. Every entry has a document, and no other device has an entry for it;
there may be documents without an entry. -/
structure Idle (s : EntryService) : Prop where
  nodup : s.documentIDs.Nodup
  known : ∀ id ∈ s.documentIDs, id ∈ s.generated
  entries : ∀ i, (s.listed i).Nodup ∧ s.listed i ⊆ s.documentIDs
  apart : ∀ i j, i ≠ j → (s.listed i).Disjoint (s.listed j)
  screens : ∀ i screen, ((s.devices i).screens screen).key = none
  requests : ∀ i, (s.devices i).requests = []
  answers : ∀ i, (s.devices i).answers = []
  ended : ∀ i, (s.devices i).ended = false

end EntryService

def entryService : EventMachine EntryService (Nat × EntryEvent) where
  init := EntryService.Idle
  step := EntryService.step

/-! ## What a step of a device reads -/

/-- The documents after a request has been dealt with, if one has. -/
def EntryRequest.settle (request : Option EntryRequest) (documents : List Document) :
    List Document :=
  request.elim documents (EntryRequest.apply documents)

namespace EntryStores

/-- What a handler does to the documents, or a step: it deals with one request of the device or with
none. -/
structure Framed (act : EntryStores → Option EntryStores) (v v' : EntryStores)
    (request : Option EntryRequest) (new : List String) : Prop where
  documents : v'.documents = EntryRequest.settle request v.documents
  generated : v'.generated = new ++ v.generated
  asked : ∀ r ∈ request, r ∈ v.requests
  fresh : ∀ id ∈ new, id ∉ v.generated
  /-- it does not depend on the documents, and a new id is as new among fewer ids -/
  frame : ∀ documents generated, generated ⊆ v.generated →
    act (v.device.stores documents generated)
      = some (v'.device.stores (EntryRequest.settle request documents) (new ++ generated))

/-- Nothing is dealt with, and no id is generated. -/
theorem framed_none {act : EntryStores → Option EntryStores} {v v' : EntryStores}
    (hdocuments : v'.documents = v.documents) (hgenerated : v'.generated = v.generated)
    (hframe : ∀ documents generated, generated ⊆ v.generated →
      act (v.device.stores documents generated) = some (v'.device.stores documents generated)) :
    Framed act v v' none [] where
  documents := hdocuments
  generated := hgenerated
  asked _ hr := absurd hr (Option.not_mem_none _)
  fresh _ hid := absurd hid List.not_mem_nil
  frame := hframe

theorem framed_makeAppointment {v v' : EntryStores} {screen : Nat} {form : MakeAppointmentVC}
    {documentID : String} (hnew : documentID ∉ v.generated)
    (h : v.makeAppointment screen form documentID = some v') :
    ∃ new, Framed (·.makeAppointment screen form documentID) v v' none new := by
  unfold makeAppointment at h
  split at h
  · rename_i hsubmit
    obtain rfl := Option.some.inj h
    refine ⟨[], framed_none rfl rfl fun documents generated hsub => ?_⟩
    have hsubmit : form.submit ((v.device.stores documents generated).screens screen) = .ok none :=
      hsubmit
    show makeAppointment _ screen form documentID = _
    rw [makeAppointment, hsubmit]
  · rename_i serviceEntry hsubmit
    obtain rfl := Option.some.inj h
    refine ⟨[documentID], rfl, rfl, fun _ hr => absurd hr (Option.not_mem_none _), ?_,
      fun documents generated hsub => ?_⟩
    · intro id hid
      rw [List.mem_singleton.mp hid]
      exact hnew
    · have hsubmit : form.submit ((v.device.stores documents generated).screens screen)
          = .ok (some serviceEntry) := hsubmit
      show makeAppointment _ screen form documentID = _
      rw [makeAppointment, hsubmit]
      rfl
  · cases h

theorem framed_cencelEntry {v v' : EntryStores} {list : SampleServiceEmptyVC} {row : Nat}
    (h : v.cencelEntry list row = some v') : Framed (·.cencelEntry list row) v v' none [] := by
  simp only [cencelEntry, Option.bind_eq_bind] at h
  obtain ⟨⟨d, list'⟩, hcancel, h⟩ := Option.bind_eq_some_iff.mp h
  obtain rfl := Option.some.inj h
  refine framed_none rfl rfl fun documents generated _ => ?_
  show cencelEntry (v.device.stores documents generated) list row = _
  simp only [cencelEntry, Option.bind_eq_bind]
  exact Option.bind_eq_some_iff.mpr ⟨(d, list'), hcancel, rfl⟩

theorem framed_answer {v v' : EntryStores} {i : Nat} {success : Bool}
    (h : v.answer i success = some v') :
    ∃ request, Framed (·.answer i success) v v' request [] := by
  simp only [answer, Option.bind_eq_bind] at h
  obtain ⟨request, hrequest, h⟩ := Option.bind_eq_some_iff.mp h
  obtain rfl := Option.some.inj h
  -- a request that fails changes no document
  refine ⟨if success then some request else none, ?_, rfl, ?_,
    fun _ hid => absurd hid List.not_mem_nil, fun documents generated _ => ?_⟩
  · cases success <;> rfl
  · intro r hr
    cases success with
    | false => cases hr
    | true =>
        obtain rfl := Option.mem_some_iff.mp hr
        exact List.mem_of_getElem? hrequest
  · show answer (v.device.stores documents generated) i success = _
    simp only [answer, Option.bind_eq_bind]
    refine Option.bind_eq_some_iff.mpr ⟨request, hrequest, ?_⟩
    cases success <;> rfl

theorem framed_receive {v v' : EntryStores} {i : Nat} (h : v.receive i = some v') :
    Framed (·.receive i) v v' none [] := by
  simp only [receive, Option.bind_eq_bind] at h
  obtain ⟨answer, hanswer, h⟩ := Option.bind_eq_some_iff.mp h
  split at h
  · rename_i screen document
    rw [MakeAppointmentVC.entryAdded_eq] at h
    split_ifs at h with hsaved
    obtain rfl := Option.some.inj h
    refine framed_none rfl rfl fun documents generated _ => ?_
    have hadded := (MakeAppointmentVC.entryAdded_eq (v.device.stores documents generated).entries
      ((v.device.stores documents generated).screens screen) document.documentID).trans
        (if_neg hsaved)
    show receive (v.device.stores documents generated) i = _
    simp only [receive, Option.bind_eq_bind]
    refine Option.bind_eq_some_iff.mpr ⟨(.add screen document, true), hanswer, ?_⟩
    simp only [hadded]
    rfl
  · rename_i hother
    obtain rfl := Option.some.inj h
    refine framed_none rfl rfl fun documents generated _ => ?_
    show receive (v.device.stores documents generated) i = _
    simp only [receive, Option.bind_eq_bind]
    refine Option.bind_eq_some_iff.mpr ⟨answer, hanswer, ?_⟩
    split
    · exact absurd rfl (hother _ _)
    · rfl

theorem handle_framed {v v' : EntryStores} {e : EntryEvent} (hoccurs : v.occurs e = true)
    (h : v.handle e = some v') : ∃ request new, Framed (·.handle e) v v' request new := by
  cases e with
  | makeAppointment screen form documentID =>
      obtain ⟨new, hframed⟩ := framed_makeAppointment (of_decide_eq_true hoccurs) h
      exact ⟨none, new, hframed⟩
  | cencelEntry list row => exact ⟨none, [], framed_cencelEntry h⟩
  | answer i success =>
      obtain ⟨request, hframed⟩ := framed_answer h
      exact ⟨request, [], hframed⟩
  | receive i => exact ⟨none, [], framed_receive h⟩

/-- What can happen, can happen among fewer ids. -/
theorem occurs_stores {v : EntryStores} {e : EntryEvent} (h : v.occurs e = true)
    (documents : List Document) {generated : List String} (hsub : generated ⊆ v.generated) :
    (v.device.stores documents generated).occurs e = true := by
  cases e with
  | makeAppointment screen form documentID =>
      exact decide_eq_true (fun hmem => of_decide_eq_true h (hsub hmem))
  | cencelEntry _ _ | answer _ _ | receive _ => exact h

/-- **A step**: a handler that runs, or a trap, or an answer after it. -/
theorem step_framed {v v' : EntryStores} {e : EntryEvent} (h : v.step e = some v') :
    ∃ request new, Framed (·.step e) v v' request new := by
  rcases step_cases h with ⟨hended, hoccurs, hhandle⟩ | ⟨hended, hoccurs, htraps, rfl⟩ |
    ⟨hended, i, success, rfl, t, ht, rfl⟩
  · obtain ⟨request, new, hframed⟩ := handle_framed hoccurs hhandle
    refine ⟨request, new, hframed.documents, hframed.generated, hframed.asked, hframed.fresh,
      fun documents generated hsub => ?_⟩
    have hlive : (v.device.stores documents generated).ended = false := hended
    show (v.device.stores documents generated).step e = _
    unfold step
    rw [if_pos (occurs_stores hoccurs documents hsub), hlive, if_neg Bool.false_ne_true,
      hframed.frame documents generated hsub, Option.getD_some]
  · refine ⟨none, [], framed_none rfl rfl fun documents generated hsub => ?_⟩
    have hlive : (v.device.stores documents generated).ended = false := hended
    have hoccurs' := occurs_stores hoccurs documents hsub
    have hnone : (v.device.stores documents generated).handle e = none := by
      rw [handle_eq_none_iff hoccurs']
      cases e <;> exact htraps
    show (v.device.stores documents generated).step e = _
    unfold step
    rw [if_pos hoccurs', hlive, if_neg Bool.false_ne_true, hnone]
    rfl
  · obtain ⟨request, hframed⟩ := framed_answer ht
    refine ⟨request, [], hframed.documents, hframed.generated, hframed.asked, hframed.fresh,
      fun documents generated hsub => ?_⟩
    have hdead : (v.device.stores documents generated).ended = true := hended
    have hoccurs : (v.device.stores documents generated).occurs (.answer i success) = true := by
      obtain ⟨request, hrequest, -⟩ := Option.bind_eq_some_iff.mp ht
      exact decide_eq_true (List.getElem?_eq_some_iff.mp hrequest).1
    show (v.device.stores documents generated).step (.answer i success) = _
    rw [step, if_pos hoccurs, if_pos hdead]
    simp only [hframed.frame documents generated hsub]
    rfl

end EntryStores

/-! ## The ids of a device -/

/-- The id of the document that is added or deleted. -/
def EntryRequest.documentID : EntryRequest → String
  | .add _ document => document.documentID
  | .delete id => id

/-- A device asks for nothing but documents with ids that it has been given. -/
theorem EntryStores.documentID_mem_generated {s : EntryStores} (hi : s.EntryInv) {r : EntryRequest}
    (hr : r ∈ s.requests) : r.documentID ∈ s.generated := by
  apply hi.known
  cases r with
  | add screen document =>
      refine Multiset.mem_add.mpr (Or.inr ?_)
      exact List.mem_flatMap.mpr ⟨_, hr, List.mem_cons_self⟩
  | delete id =>
      refine Multiset.mem_add.mpr (Or.inl (Multiset.mem_of_le hi.le ?_))
      refine Multiset.mem_add.mpr (Or.inl (Multiset.mem_add.mpr (Or.inr ?_)))
      exact List.mem_flatMap.mpr ⟨_, hr, List.mem_cons_self⟩

namespace EntryService

theorem mem_documentsOf {ids : List String} {documents : List Document} {d : Document} :
    d ∈ documentsOf ids documents ↔ d ∈ documents ∧ d.documentID ∈ ids := by
  rw [documentsOf, List.mem_filter, decide_eq_true_eq]

/-- A request for one of the ids changes the documents with these ids. -/
theorem documentsOf_apply {ids : List String} {r : EntryRequest} (hr : r.documentID ∈ ids)
    (documents : List Document) :
    documentsOf ids (r.apply documents) = r.apply (documentsOf ids documents) := by
  cases r with
  | add screen document =>
      have hadded : documentsOf ids [document] = [document] :=
        List.filter_eq_self.mpr (fun d hd => decide_eq_true (List.mem_singleton.mp hd ▸ hr))
      show documentsOf ids (documents ++ [document]) = documentsOf ids documents ++ [document]
      rw [documentsOf, List.filter_append]
      exact congrArg (documentsOf ids documents ++ ·) hadded
  | delete id =>
      show List.filter _ (List.filter _ documents) = List.filter _ (List.filter _ documents)
      rw [List.filter_filter, List.filter_filter]
      exact List.filter_congr (fun d _ => Bool.and_comm _ _)

/-- A request for another id leaves them as they are. -/
theorem documentsOf_apply_other {ids : List String} {r : EntryRequest} (hr : r.documentID ∉ ids)
    (documents : List Document) : documentsOf ids (r.apply documents) = documentsOf ids documents := by
  cases r with
  | add screen document =>
      have hadded : documentsOf ids [document] = [] :=
        List.filter_eq_nil_iff.mpr (fun d hd => by
          rw [List.mem_singleton.mp hd, decide_eq_true_eq]
          exact hr)
      show documentsOf ids (documents ++ [document]) = documentsOf ids documents
      rw [documentsOf, List.filter_append]
      exact (congrArg (documentsOf ids documents ++ ·) hadded).trans (List.append_nil _)
  | delete id =>
      show List.filter _ (List.filter _ documents) = List.filter _ documents
      rw [List.filter_filter]
      refine List.filter_congr (fun d _ => ?_)
      -- a document with one of the ids is not the one that is deleted
      by_cases hd : d.documentID ∈ ids
      · have hne : d.documentID ≠ id := fun heq => hr (heq ▸ hd)
        simp [hd, hne]
      · simp [hd]

/-- An id that no document has makes no difference. -/
theorem documentsOf_append {new ids : List String} {documents : List Document}
    (hnew : ∀ d ∈ documents, d.documentID ∉ new) :
    documentsOf (new ++ ids) documents = documentsOf ids documents := by
  refine List.filter_congr (fun d hd => ?_)
  rw [decide_eq_decide, List.mem_append]
  exact or_iff_right (hnew d hd)

theorem documentsOf_settle {ids : List String} {request : Option EntryRequest}
    (h : ∀ r ∈ request, r.documentID ∈ ids) (documents : List Document) :
    documentsOf ids (EntryRequest.settle request documents)
      = EntryRequest.settle request (documentsOf ids documents) := by
  cases request with
  | none => rfl
  | some r => exact documentsOf_apply (h r rfl) documents

theorem documentsOf_settle_other {ids : List String} {request : Option EntryRequest}
    (h : ∀ r ∈ request, r.documentID ∉ ids) (documents : List Document) :
    documentsOf ids (EntryRequest.settle request documents) = documentsOf ids documents := by
  cases request with
  | none => rfl
  | some r => exact documentsOf_apply_other (h r rfl) documents

/-- No document comes but the one that is asked for. -/
theorem documentID_of_mem_settle {request : Option EntryRequest} {documents : List Document}
    {d : Document} (h : d ∈ EntryRequest.settle request documents) :
    d ∈ documents ∨ ∃ r ∈ request, d.documentID = r.documentID := by
  match request with
  | none => exact Or.inl h
  | some (.delete id) => exact Or.inl (List.mem_of_mem_filter h)
  | some (.add screen document) =>
      refine (List.mem_append.mp h).imp_right (fun hd => ⟨_, rfl, ?_⟩)
      rw [List.mem_singleton.mp hd]
      rfl

/-! ## One step -/

/-- The ids that the devices have been given are different, and those of each device are in order. -/
structure Apart (s : EntryService) (given : Nat → List String) : Prop where
  inv : ∀ i, (s.alone given i).EntryInv
  different : ∀ i j, i ≠ j → (given i).Disjoint (given j)
  generated : ∀ i, given i ⊆ s.generated
  known : ∀ d ∈ s.documents, d.documentID ∈ s.generated

/-- New ids for one device. -/
def give (given : Nat → List String) (i : Nat) (new : List String) : Nat → List String :=
  Function.update given i (new ++ given i)

theorem mem_give {given : Nat → List String} {i j : Nat} {new : List String} {id : String} :
    id ∈ give given i new j ↔ (j = i ∧ id ∈ new) ∨ id ∈ given j := by
  by_cases hj : j = i
  · subst hj
    simp [give, List.mem_append]
  · simp [give, hj]

/-- Ids that nobody has been given leave the devices apart. -/
theorem disjoint_give {given : Nat → List String} {i : Nat} {new generated : List String}
    (hdifferent : ∀ j k, j ≠ k → (given j).Disjoint (given k)) (hgiven : ∀ j, given j ⊆ generated)
    (hnew : ∀ id ∈ new, id ∉ generated) {j k : Nat} (hjk : j ≠ k) :
    (give given i new j).Disjoint (give given i new k) := by
  intro id hj hk
  rcases mem_give.mp hj with ⟨rfl, hid⟩ | hj
  · rcases mem_give.mp hk with ⟨rfl, -⟩ | hk
    · exact hjk rfl
    · exact hnew id hid (hgiven k hk)
  · rcases mem_give.mp hk with ⟨-, hid⟩ | hk
    · exact hnew id hid (hgiven j hj)
    · exact hdifferent j k hjk hj hk

/-- What a step of one device does: it is its step without the others, it leaves them as they are,
and the only ids that come are new. -/
structure StepOf (s s' : EntryService) (given : Nat → List String) (i : Nat) (e : EntryEvent)
    (new : List String) : Prop where
  alone : (s.alone given i).step e = some (s'.alone (give given i new) i)
  others : ∀ j, j ≠ i → s'.alone (give given i new) j = s.alone given j
  generated : s'.generated = new ++ s.generated
  fresh : ∀ id ∈ new, id ∉ s.generated
  known : ∀ d ∈ s'.documents, d.documentID ∈ s.generated

theorem stepOf_step {s s' : EntryService} {given : Nat → List String} {i : Nat} {e : EntryEvent}
    (ha : Apart s given) (h : s.step (i, e) = some s') : ∃ new, StepOf s s' given i e new := by
  obtain ⟨v, hv, h⟩ := Option.bind_eq_some_iff.mp h
  obtain rfl := Option.some.inj h
  obtain ⟨request, new, hframed⟩ := EntryStores.step_framed hv
  have hdocuments : v.documents = EntryRequest.settle request s.documents := hframed.documents
  have hfresh : ∀ id ∈ new, id ∉ s.generated := hframed.fresh
  have hasked : ∀ r ∈ request, r.documentID ∈ given i :=
    fun r hr => EntryStores.documentID_mem_generated (ha.inv i) (hframed.asked r hr)
  refine ⟨new, ?_, ?_, hframed.generated, hfresh, ?_⟩
  · -- a document with a new id does not exist yet
    have hnone : ∀ d ∈ s.documents, d.documentID ∉ new :=
      fun d hd hmem => hfresh _ hmem (ha.known d hd)
    simp only [EntryService.alone, give, Function.update_self]
    rw [hdocuments, documentsOf_settle (fun r hr => List.mem_append_right new (hasked r hr)),
      documentsOf_append hnone]
    exact hframed.frame _ _ (ha.generated i)
  · intro j hj
    -- the request is not for a document of another device
    have hother : documentsOf (given j) v.documents = documentsOf (given j) s.documents := by
      rw [hdocuments]
      refine documentsOf_settle_other (fun r hr hmem => ?_) _
      exact ha.different i j (Ne.symm hj) (hasked r hr) hmem
    simp only [EntryService.alone, give, Function.update_of_ne hj, hother]
  · intro d hd
    rcases documentID_of_mem_settle (hdocuments ▸ hd) with hd | ⟨r, hr, heq⟩
    · exact ha.known d hd
    · rw [heq]
      exact ha.generated i (hasked r hr)

/-- **Every step** leaves the devices apart. -/
theorem apart_step {s s' : EntryService} {given : Nat → List String} {i : Nat} {e : EntryEvent}
    {new : List String} (ha : Apart s given) (h : StepOf s s' given i e new) :
    Apart s' (give given i new) where
  inv j := by
    by_cases hj : j = i
    · subst hj
      exact EntryStores.entryInv_step (ha.inv j) h.alone
    · rw [h.others j hj]
      exact ha.inv j
  different _ _ hjk := disjoint_give ha.different ha.generated h.fresh hjk
  generated j id hid := by
    rw [h.generated]
    rcases mem_give.mp hid with ⟨-, hid⟩ | hid
    · exact List.mem_append_left _ hid
    · exact List.mem_append_right _ (ha.generated j hid)
  known d hd := by
    rw [h.generated]
    exact List.mem_append_right _ (h.known d hd)

/-- At the start every device has been given the ids of its entries. -/
theorem init_alone {s : EntryService} (h : s.Idle) (i : Nat) :
    entryStores.init (s.alone s.listed i) := by
  refine ⟨⟨?_, (h.entries i).1⟩, fun id hid => hid, h.screens i, h.requests i,
    h.answers i, h.ended i⟩
  have hnodup : ((documentsOf (s.listed i) s.documents).map (·.documentID)).Nodup :=
    h.nodup.sublist (List.filter_sublist.map _)
  refine (List.perm_ext_iff_of_nodup (h.entries i).1 hnodup).mpr (fun id => ?_)
  rw [List.mem_map]
  constructor
  · intro hid
    obtain ⟨d, hd, rfl⟩ := List.mem_map.mp ((h.entries i).2 hid)
    exact ⟨d, mem_documentsOf.mpr ⟨hd, hid⟩, rfl⟩
  · rintro ⟨d, hd, rfl⟩
    exact (mem_documentsOf.mp hd).2

theorem apart_init {s : EntryService} (h : s.Idle) : Apart s s.listed where
  inv i := (EntryStores.entryInv_init (init_alone h i)).1
  different := h.apart
  generated i _ hid := h.known _ ((h.entries i).2 hid)
  known _ hd := h.known _ (List.mem_map_of_mem hd)

theorem apart_of_reachable {s : EntryService} (h : entryService.Reachable s) :
    ∃ given, Apart s given := by
  refine h.invariant (fun s => ∃ given, Apart s given) (fun s h0 => ⟨_, apart_init h0⟩) ?_
  rintro s ⟨i, e⟩ s' ⟨given, ha⟩ - hs
  obtain ⟨new, hstep⟩ := stepOf_step ha hs
  exact ⟨_, apart_step ha hstep⟩

end EntryService

/-! ## The runs -/

/-- **Each device by itself**: in a run of any number of devices, what a device and its documents
come to is what they come to in a run of that device alone. -/
theorem devices_apart {s s' : EntryService} {es : List (Nat × EntryEvent)} (h0 : s.Idle)
    (h : entryService.exec s es = some s') :
    ∃ given : Nat → List String, (∀ i j, i ≠ j → (given i).Disjoint (given j)) ∧
      ∀ i, entryStores.init (s.alone s.listed i) ∧
        entryStores.exec (s.alone s.listed i) (EventMachine.eventsOf i es)
          = some (s'.alone given i) := by
  have hstep : ∀ (s : EntryService) (t : Nat → EntryStores) i e s',
      (∃ given, s.Apart given ∧ t = s.alone given) → entryService.step s (i, e) = some s' →
        ∃ u, entryStores.step (t i) e = some u ∧
          ∃ given, s'.Apart given ∧ Function.update t i u = s'.alone given := by
    rintro s _ i e s' ⟨given, ha, rfl⟩ hs
    obtain ⟨new, hstep⟩ := EntryService.stepOf_step ha hs
    refine ⟨_, hstep.alone, _, EntryService.apart_step ha hstep, ?_⟩
    funext j
    by_cases hj : j = i
    · subst hj
      exact Function.update_self ..
    · rw [Function.update_of_ne hj, hstep.others j hj]
  obtain ⟨_, ⟨given, ha, rfl⟩, hruns⟩ :=
    EventMachine.exec_components hstep es ⟨s.listed, EntryService.apart_init h0, rfl⟩ h
  exact ⟨given, ha.different, fun i => ⟨EntryService.init_alone h0 i, hruns i⟩⟩

/-- Devices without appointments. -/
def noEntries : EntryService where
  documents := []
  generated := []
  devices _ := noAppointments.device

theorem idle_noEntries : noEntries.Idle where
  nodup := List.nodup_nil
  known := nofun
  entries _ := ⟨List.nodup_nil, List.nil_subset _⟩
  apart _ _ _ := List.disjoint_nil_left _
  screens _ _ := rfl
  requests _ := rfl
  answers _ := rfl
  ended _ := rfl

/-- Two devices make an appointment each. -/
def twoBookings : List (Nat × EntryEvent) :=
  [(0, .makeAppointment 0 filledForm "first"), (1, .makeAppointment 0 filledForm "second"),
    (1, .answer 0 true), (0, .answer 0 true), (0, .receive 0), (1, .receive 0)]

theorem devices_apart_two : ∃ s : EntryService, s.documentIDs = ["second", "first"] ∧
    ∃ given : Nat → List String, (∀ i j, i ≠ j → (given i).Disjoint (given j)) ∧
      ∀ i, entryStores.init (noEntries.alone noEntries.listed i) ∧
        entryStores.exec (noEntries.alone noEntries.listed i) (EventMachine.eventsOf i twoBookings)
          = some (s.alone given i) := by
  have hrun : (entryService.exec noEntries twoBookings).map EntryService.documentIDs
      = some ["second", "first"] := by decide
  obtain ⟨s, hs, hdocuments⟩ := Option.map_eq_some_iff.mp hrun
  exact ⟨s, hdocuments, devices_apart idle_noEntries hs⟩

/-! ## Cancellations -/

/-- The event cancels the entry with the id. -/
def EntryDevice.Cancels (device : EntryDevice) (id : String) : EntryEvent → Prop
  | .cencelEntry list row => ∃ key entry, list.arrayServiceEntrySample[row]? = some key ∧
      device.entries.read key = some entry ∧ entry.id = id
  | _ => False

namespace EntryStores

/-- No entry with the id is going to be saved. -/
structure NotComing (s : EntryStores) (id : String) : Prop where
  generated : id ∈ s.generated
  awaited : id ∉ s.awaited
  unsaved : id ∉ s.answers.flatMap unsaved

/-- An entry that is listed is not going to be saved once more, and its document exists. -/
theorem notComing_of_mem_ids {s : EntryStores} {id : String} (hi : s.EntryInv) (hid : id ∈ s.ids) :
    s.NotComing id ∧ id ∈ s.documentIDs := by
  have hheld : id ∈ s.held := Multiset.mem_add.mpr (Or.inl (Multiset.mem_add.mpr (Or.inl hid)))
  have hremote : id ∈ s.remote := Multiset.mem_of_le hi.le hheld
  obtain ⟨hnodup, -, hdisjoint⟩ := Multiset.nodup_add.mp hi.nodup
  obtain ⟨-, -, hunsaved⟩ := Multiset.nodup_add.mp (Multiset.nodup_of_le hi.le hnodup)
  refine ⟨⟨hi.known id (Multiset.mem_add.mpr (Or.inl hremote)), ?_, ?_⟩, hremote⟩
  · exact Multiset.disjoint_left.mp hdisjoint hremote
  · exact Multiset.disjoint_left.mp hunsaved (Multiset.mem_add.mpr (Or.inl hid))

theorem nodup_ids {s : EntryStores} (hi : s.EntryInv) : s.ids.Nodup := by
  have hle : (↑s.ids : Multiset String) ≤ s.remote + s.awaited :=
    ((Multiset.le_add_right _ _).trans (Multiset.le_add_right _ _)).trans
      (hi.le.trans (Multiset.le_add_right _ _))
  exact Multiset.coe_nodup.mp (Multiset.nodup_of_le hle hi.nodup)

theorem notComing_makeAppointment {s s' : EntryStores} {screen : Nat} {form : MakeAppointmentVC}
    {documentID id : String} (hnew : documentID ∉ s.generated) (hn : s.NotComing id)
    (h : s.makeAppointment screen form documentID = some s') : s'.NotComing id ∧ s'.ids = s.ids := by
  obtain ⟨-, -, hcase⟩ := moves_makeAppointment h
  have hsame : s'.ids = s.ids ∧ s'.answers = s.answers := by
    unfold makeAppointment at h
    split at h
    · exact Option.some.inj h ▸ ⟨rfl, rfl⟩
    · exact Option.some.inj h ▸ ⟨rfl, rfl⟩
    · cases h
  refine ⟨?_, hsame.1⟩
  have hunsaved : id ∉ s'.answers.flatMap unsaved := by
    rw [hsame.2]
    exact hn.unsaved
  rcases hcase with ⟨hawaited, hgenerated⟩ | ⟨hawaited, hgenerated⟩
  · exact ⟨hgenerated ▸ hn.generated, hawaited ▸ hn.awaited, hunsaved⟩
  · -- Firestore has generated the id before
    have hne : id ≠ documentID := fun heq => hnew (heq ▸ hn.generated)
    refine ⟨?_, ?_, hunsaved⟩
    · rw [hgenerated]
      exact List.mem_cons_of_mem _ hn.generated
    · rw [hawaited, Multiset.mem_cons, not_or]
      exact ⟨hne, hn.awaited⟩

theorem notComing_cencelEntry {s s' : EntryStores} {list : SampleServiceEmptyVC} {row : Nat}
    {id : String} (hi : s.EntryInv) (hn : s.NotComing id) (h : s.cencelEntry list row = some s') :
    s'.NotComing id ∧ (id ∈ s'.ids ↔ id ∈ s.ids ∧ ¬ s.device.Cancels id (.cencelEntry list row)) := by
  obtain ⟨-, -, hawaited, hgenerated⟩ := moves_cencelEntry h
  simp only [cencelEntry, Option.bind_eq_bind] at h
  obtain ⟨⟨d, list'⟩, hcancel, h⟩ := Option.bind_eq_some_iff.mp h
  obtain ⟨key, sample, hrow, hread, rfl, rfl⟩ := SampleServiceEmptyVC.cencelEntry_eq_some hcancel
  obtain rfl := Option.some.inj h
  refine ⟨⟨hn.generated, hawaited ▸ hn.awaited, hn.unsaved⟩, ?_⟩
  replace hread : s.entries.read key = some sample := hread
  have hperm : s.ids.Perm (sample.id :: (s.entries.deleteObjectRealm key).objects.map (·.2.id)) :=
    (Table.perm_deleteObjectRealm hread).map (fun o : Nat × ServiceEntry => o.2.id)
  have hcancels : s.device.Cancels id (.cencelEntry list row) ↔ sample.id = id := by
    constructor
    · rintro ⟨key', entry, hrow', hread', heq⟩
      obtain rfl := Option.some.inj (hrow.symm.trans hrow')
      obtain rfl := Option.some.inj (hread.symm.trans hread')
      exact heq
    · exact fun heq => ⟨key, sample, hrow, hread, heq⟩
  obtain ⟨hgone, -⟩ := List.nodup_cons.mp (hperm.nodup (nodup_ids hi))
  rw [hcancels, hperm.mem_iff, List.mem_cons]
  show id ∈ (s.entries.deleteObjectRealm key).objects.map (·.2.id) ↔ _
  constructor
  · intro hid
    exact ⟨Or.inr hid, fun heq => hgone (heq ▸ hid)⟩
  · rintro ⟨heq | hid, hne⟩
    · exact absurd heq.symm hne
    · exact hid

theorem notComing_answer {s s' : EntryStores} {i : Nat} {success : Bool} {id : String}
    (hn : s.NotComing id) (h : s.answer i success = some s') :
    s'.NotComing id ∧ s'.ids = s.ids := by
  simp only [answer, Option.bind_eq_bind] at h
  obtain ⟨request, hrequest, h⟩ := Option.bind_eq_some_iff.mp h
  obtain rfl := Option.some.inj h
  have hawaited := hn.awaited
  rw [awaited_answer hrequest (if success then request.apply s.documents else s.documents)
    (s.answers ++ [(request, success)]), Multiset.mem_add, not_or] at hawaited
  refine ⟨⟨hn.generated, hawaited.2, ?_⟩, rfl⟩
  show id ∉ (s.answers ++ [(request, success)]).flatMap unsaved
  rw [List.flatMap_append, List.flatMap_singleton, List.mem_append, not_or]
  refine ⟨hn.unsaved, ?_⟩
  -- what is to be saved has been asked for
  cases success with
  | false => exact List.not_mem_nil
  | true => exact hawaited.1

theorem notComing_receive {s s' : EntryStores} {i : Nat} {id : String} (hn : s.NotComing id)
    (h : s.receive i = some s') : s'.NotComing id ∧ (id ∈ s'.ids ↔ id ∈ s.ids) := by
  obtain ⟨-, -, hawaited, hgenerated⟩ := moves_receive h
  simp only [receive, Option.bind_eq_bind] at h
  obtain ⟨answer, hanswer, h⟩ := Option.bind_eq_some_iff.mp h
  have hunsaved : id ∉ unsaved answer ∧ id ∉ (s.answers.eraseIdx i).flatMap unsaved := by
    have hnone := hn.unsaved
    rw [← Multiset.mem_coe, Balance.coe_flatMap_eraseIdx hanswer unsaved, Multiset.mem_add,
      not_or] at hnone
    exact hnone
  have hcoming : ∀ {t : EntryStores}, t.awaited = s.awaited → t.generated = s.generated →
      t.answers = s.answers.eraseIdx i → t.NotComing id :=
    fun ha hg he => ⟨hg ▸ hn.generated, ha ▸ hn.awaited, he ▸ hunsaved.2⟩
  split at h
  · rename_i screen document
    rw [MakeAppointmentVC.entryAdded_eq] at h
    split_ifs at h with hsaved
    obtain rfl := Option.some.inj h
    have hne : id ≠ document.documentID := fun heq => hunsaved.1 (heq ▸ List.mem_cons_self)
    refine ⟨hcoming hawaited hgenerated rfl, ?_⟩
    simp only [ids, Table.saveObjectRealm, List.map_append, List.map_singleton, List.mem_append,
      List.mem_singleton]
    exact or_iff_left hne
  · obtain rfl := Option.some.inj h
    exact ⟨hcoming hawaited hgenerated rfl, Iff.rfl⟩

theorem notComing_handle {s s' : EntryStores} {e : EntryEvent} {id : String} (hi : s.EntryInv)
    (hn : s.NotComing id) (hoccurs : s.occurs e = true) (h : s.handle e = some s') :
    s'.NotComing id ∧ (id ∈ s'.ids ↔ id ∈ s.ids ∧ ¬ s.device.Cancels id e) := by
  cases e with
  | makeAppointment screen form documentID =>
      obtain ⟨hn', hids⟩ := notComing_makeAppointment (of_decide_eq_true hoccurs) hn h
      exact ⟨hn', hids ▸ (and_iff_left not_false).symm⟩
  | cencelEntry list row => exact notComing_cencelEntry hi hn h
  | answer i success =>
      obtain ⟨hn', hids⟩ := notComing_answer hn h
      exact ⟨hn', hids ▸ (and_iff_left not_false).symm⟩
  | receive i =>
      obtain ⟨hn', hids⟩ := notComing_receive hn h
      exact ⟨hn', hids.trans (and_iff_left not_false).symm⟩

/-- **One step**: an entry goes if it is cancelled, and none with its id comes. -/
theorem notComing_step {s s' : EntryStores} {e : EntryEvent} {id : String} (hi : s.EntryInv)
    (hn : s.NotComing id) (h : s.step e = some s') :
    s'.NotComing id ∧ (id ∈ s'.ids ↔ id ∈ s.ids ∧ ¬ s.device.Cancels id e) := by
  rcases step_cases h with ⟨-, hoccurs, hhandle⟩ | ⟨-, hoccurs, htraps, rfl⟩ |
    ⟨-, i, success, rfl, t, ht, rfl⟩
  · exact notComing_handle hi hn hoccurs hhandle
  · -- an entry that is cancelled can be read
    refine ⟨⟨hn.generated, hn.awaited, List.not_mem_nil⟩, (and_iff_left ?_).symm⟩
    cases e with
    | cencelEntry list row =>
        rintro ⟨key, entry, hkey, hread, -⟩
        have hgone : s.entries.read key = none := htraps key hkey
        have hread : s.entries.read key = some entry := hread
        rw [hgone] at hread
        cases hread
    | makeAppointment _ _ _ | answer _ _ | receive _ => exact not_false
  · obtain ⟨hn', hids⟩ := notComing_answer hn ht
    refine ⟨⟨hn'.generated, hn'.awaited, List.not_mem_nil⟩, ?_⟩
    show id ∈ t.ids ↔ _
    rw [hids]
    exact (and_iff_left not_false).symm

end EntryStores

/-- No entry with the id is cancelled on the device. -/
def NotCancelledOn (i : Nat) (id : String) (s : EntryService) (e : Nat × EntryEvent) : Prop :=
  e.1 = i → ¬ (s.devices i).Cancels id e.2

/-- **An appointment that is listed** on a device is listed there at the end of a run if and only if
the run does not cancel it there, whatever the other devices do and whichever requests fail; and as
long as it is listed, its document is in the collection and it is on no other device. -/
theorem listed_iff_notCancelled {s s' : EntryService} {i : Nat} {id : String}
    (h : entryService.Reachable s) (hid : id ∈ s.listed i) (es : List (Nat × EntryEvent))
    (h' : entryService.exec s es = some s') :
    (id ∈ s'.listed i ↔ entryService.Each (NotCancelledOn i id) s es) ∧
      (id ∈ s'.listed i → id ∈ s'.documentIDs ∧ ∀ j, j ≠ i → id ∉ s'.listed j) := by
  constructor
  · have hiff := EventMachine.exec_iff_each (M := entryService) (C := NotCancelledOn i id)
      (fun u => ∃ given, u.Apart given ∧ (u.alone given i).NotComing id)
      (fun u => id ∈ u.listed i) ?_ ?_ es ?_ h'
    · exact hiff.trans (and_iff_right hid)
    · rintro u ⟨j, e⟩ u' ⟨given, ha, hn⟩ hs
      obtain ⟨new, hstep⟩ := EntryService.stepOf_step ha hs
      refine ⟨_, EntryService.apart_step ha hstep, ?_⟩
      by_cases hj : i = j
      · subst hj
        exact (EntryStores.notComing_step (ha.inv i) hn hstep.alone).1
      · rw [hstep.others i hj]
        exact hn
    · rintro u ⟨j, e⟩ u' ⟨given, ha, hn⟩ hs
      obtain ⟨new, hstep⟩ := EntryService.stepOf_step ha hs
      by_cases hj : i = j
      · subst hj
        refine (EntryStores.notComing_step (ha.inv i) hn hstep.alone).2.trans ?_
        refine and_congr_right fun _ => ?_
        exact ⟨fun hc _ => hc, fun hc => hc rfl⟩
      · have hsame : u'.listed i = u.listed i := congrArg EntryStores.ids (hstep.others i hj)
        show id ∈ u'.listed i ↔ _
        rw [hsame]
        exact (and_iff_left (fun heq => absurd heq.symm hj)).symm
    · obtain ⟨given, ha⟩ := EntryService.apart_of_reachable h
      exact ⟨given, ha, (EntryStores.notComing_of_mem_ids (ha.inv i) hid).1⟩
  · intro hlisted
    obtain ⟨given, ha⟩ := EntryService.apart_of_reachable (h.exec es h')
    have hmem : ∀ {j}, id ∈ s'.listed j → id ∈ given j ∧ id ∈ s'.documentIDs := by
      intro j hj
      obtain ⟨hn, hdocument⟩ := EntryStores.notComing_of_mem_ids (ha.inv j) hj
      obtain ⟨d, hd, rfl⟩ := List.mem_map.mp hdocument
      exact ⟨hn.generated, List.mem_map_of_mem (EntryService.mem_documentsOf.mp hd).1⟩
    refine ⟨(hmem hlisted).2, fun j hj hother => ?_⟩
    exact ha.different j i hj (hmem hother).1 (hmem hlisted).1

/-- The second of two devices cancels its appointment, and the deletion of the document fails. -/
def otherCancelled : List (Nat × EntryEvent) :=
  [(1, .cencelEntry firstListed 0), (1, .answer 0 false), (1, .receive 0)]

theorem listed_iff_notCancelled_other : ∃ s s' : EntryService, s.listed 1 = ["second"] ∧
    s'.listed 1 = [] ∧ s'.documentIDs = ["second", "first"] ∧
    entryService.exec s otherCancelled = some s' ∧
    entryService.Each (NotCancelledOn 0 "first") s otherCancelled ∧
    ¬ entryService.Each (NotCancelledOn 1 "second") s otherCancelled := by
  have hrun : ((entryService.exec noEntries twoBookings).bind (fun s =>
      (entryService.exec s otherCancelled).map (fun s' => (s, s')))).map (fun s =>
        (s.1.listed 0, s.1.listed 1, s.2.listed 0, s.2.listed 1, s.2.documentIDs))
      = some (["first"], ["second"], ["first"], [], ["second", "first"]) := by decide
  obtain ⟨⟨s, s'⟩, hboth, hend⟩ := Option.map_eq_some_iff.mp hrun
  obtain ⟨t, ht, hboth⟩ := Option.bind_eq_some_iff.mp hboth
  obtain ⟨t', ht', heq⟩ := Option.map_eq_some_iff.mp hboth
  obtain ⟨rfl, rfl⟩ := Prod.mk.inj heq
  simp only [Prod.mk.injEq] at hend
  obtain ⟨hfirst, hsecond, hkept, hgone, hdocuments⟩ := hend
  have hreach : entryService.Reachable t := EventMachine.reachable_of_exec _ idle_noEntries ht
  have hlisted : "first" ∈ t.listed 0 ∧ "second" ∈ t.listed 1 := by
    rw [hfirst, hsecond]
    decide
  have hstays : "first" ∈ t'.listed 0 := by
    rw [hkept]
    decide
  refine ⟨t, t', hsecond, hgone, hdocuments, ht',
    (listed_iff_notCancelled hreach hlisted.1 _ ht').1.mp hstays, fun hnot => ?_⟩
  have hback := (listed_iff_notCancelled hreach hlisted.2 _ ht').1.mpr hnot
  rw [hgone] at hback
  cases hback

end Flamingo
