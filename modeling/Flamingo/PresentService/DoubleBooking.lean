import Flamingo.PresentService.VisitChecks

set_option autoImplicit false

/-! # Double bookings

A client that makes an appointment has compared its time with the documents that the server had
read for it, and with no others: `addDocument` is not part of a transaction. So two documents for
the same master and the same time get into the collection exactly if one of them is written
between the read and the write of the other.
-/

namespace Flamingo

/-- The master and the time of a document. -/
def Document.slot (d : Document) : Option (String × Int) := do
  let idMaster ← d.idMaster
  let dttmEntry ← d.dttmEntry
  some (idMaster, dttmEntry)

theorem dttmEntry_of_slot {d : Document} {idMaster : String} {time : Int}
    (h : d.slot = some (idMaster, time)) : d.dttmEntry = some time := by
  simp only [Document.slot, Option.bind_eq_bind] at h
  obtain ⟨idMaster', -, h⟩ := Option.bind_eq_some_iff.mp h
  obtain ⟨time', htime, heq⟩ := Option.bind_eq_some_iff.mp h
  simp only [Option.some.injEq, Prod.mk.injEq] at heq
  rw [htime, heq.2]

/-- Two documents for the same master and the same time. -/
def SameSlot (d d' : Document) : Prop := ∃ slot, d.slot = some slot ∧ d'.slot = some slot

/-- The segue to the calendar hands over a master with an id. -/
def BookingEvent.ForMaster : BookingEvent → Prop
  | .openCalendar _ appointment _ _ _ _ => ∀ handed ∈ appointment.prepare, handed.2.id ≠ ""
  | _ => True

instance (e : BookingEvent) : Decidable e.ForMaster :=
  match e with
  | .openCalendar _ appointment _ _ _ _ =>
      inferInstanceAs (Decidable (∀ handed ∈ appointment.prepare, handed.2.id ≠ ""))
  | .tapDay _ _ _ | .answer _ | .receive _ | .tapTime _ _ _ | .scroll _ _ | .makeAppointment _ _
  | .leave _ => inferInstanceAs (Decidable True)

namespace BookingState

def NoDoubleBooking (s : BookingState) : Prop :=
  Ledger.Consistent SameSlot (s.serviceEnrty.map (·.document))

/-- When a client makes an appointment, no document for its master and its time has been added
since the server answered its query. -/
def Undisturbed (s : BookingState) : BookingEvent → Prop
  | .makeAppointment client _ =>
      match s.clients client with
      | .chosen appointment seen => ∀ p ∈ s.serviceEnrty.drop seen, ∀ slot ∈ appointment.slot,
          p.document.slot ≠ some slot
      | _ => True
  | _ => True

/-- **One press.** The document it adds doubles no other exactly if the press is undisturbed. -/
theorem press_noDoubleBooking {s s' : BookingState} {client : Nat} {documentID : String}
    (hi : s.Sound Set.univ) (h : s.press client documentID = some s') :
    s'.NoDoubleBooking ↔
      s.NoDoubleBooking ∧ s.Undisturbed (.makeAppointment client documentID) := by
  obtain ⟨appointment, seen, entry, hflow, hslot, hdate, rfl⟩ := press_cases h
  have hsound := hi client
  rw [hflow] at hsound
  obtain ⟨-, -, -, hfree⟩ := hsound
  have hnew : Document.slot ⟨documentID, saveServiceEntryToFirebase entry⟩
      = some (entry.idMaster, entry.dttmEntry) := rfl
  have hseen : ∀ d ∈ (s.serviceEnrty.map (·.document)).take seen,
      ¬ SameSlot d ⟨documentID, saveServiceEntryToFirebase entry⟩ := by
    rintro d hd ⟨slot, hd', hslot'⟩
    rw [← List.map_take] at hd
    obtain ⟨p, hp, rfl⟩ := List.mem_map.mp hd
    rw [hnew, Option.some.injEq] at hslot'
    subst hslot'
    -- the master does not matter: the times of all masters were compared
    exact hfree p hp (by rw [dttmEntry_of_slot hd', hdate])
  have hdrop : (∀ d ∈ (s.serviceEnrty.map (·.document)).drop seen,
      ¬ SameSlot d ⟨documentID, saveServiceEntryToFirebase entry⟩) ↔
      s.Undisturbed (.makeAppointment client documentID) := by
    simp only [Undisturbed, hflow, ← List.map_drop, List.forall_mem_map, SameSlot, hnew, hslot,
      Option.mem_def, Option.some.injEq, forall_eq', not_exists, not_and]
    constructor
    · intro hnone p hp heq
      exact hnone p hp _ heq rfl
    · rintro hnone p hp slot heq rfl
      exact hnone p hp heq
  rw [NoDoubleBooking, NoDoubleBooking, ← hdrop, List.map_append]
  exact Ledger.consistent_append_iff hseen

theorem step_noDoubleBooking {s s' : BookingState} {e : BookingEvent} (hi : s.Sound Set.univ)
    (h : s.step e = some s') : s'.NoDoubleBooking ↔ s.NoDoubleBooking ∧ s.Undisturbed e := by
  rcases step_cases hi (BookingEvent.offersOnly_univ e) h with ⟨client, flow, he, -, rfl⟩ | ⟨client, documentID, rfl, hpress⟩
  · have hcond : s.Undisturbed e := by
      cases e with
      | makeAppointment c documentID => exact absurd rfl (he c documentID)
      | openCalendar _ _ _ _ _ _ | tapDay _ _ _ | answer _ | receive _ | tapTime _ _ _
      | scroll _ _ | leave _ => trivial
    simp only [NoDoubleBooking, hcond, and_true]
  · exact press_noDoubleBooking hi hpress

end BookingState

/-! ## The runs of the clients -/

/-- **No double booking** in exactly the runs in which every appointment is made before another
document for its master and time has been added since the answer to its query. -/
theorem noDoubleBooking_iff_reach {start : List Posted}
    (hstart : Ledger.Consistent SameSlot (start.map (·.document))) (s : BookingState)
    (h : (bookingFrom start).Reachable s) :
    s.NoDoubleBooking ↔ (bookingFrom start).Reach BookingState.Undisturbed s := by
  refine h.iff_reach (BookingState.Sound Set.univ) BookingState.NoDoubleBooking ?_
    (fun _ _ _ hi hs => BookingState.sound_step hi (BookingEvent.offersOnly_univ _) hs)
    (fun _ _ _ hi hs => BookingState.step_noDoubleBooking hi hs)
  intro s h0
  refine ⟨BookingState.sound_init h0, ?_⟩
  obtain rfl := h0
  exact hstart

/-- The flow of a client up to the chosen time: the first master, the fifth of February, a row. -/
def chooseEvents (client row : Nat) : List BookingEvent :=
  [.openCalendar client { twoMasters with visibleCells := [1] } february2020 2 1 2020,
    .tapDay client 9 february2020, .answer client, .receive client,
    .tapTime client row february2020]

/-- Two clients one after the other: the second takes another row. -/
theorem noDoubleBooking_one_by_one : ∃ s, (bookingFrom []).Reachable s ∧
    s.serviceEnrty.map (·.document.slot)
      = [some ("anna", february2020 + 4 * 86400 + 36000),
        some ("anna", february2020 + 4 * 86400 + 39600)] ∧
    (s.NoDoubleBooking ↔ (bookingFrom []).Reach BookingState.Undisturbed s) := by
  have hrun : ((bookingFrom []).exec ⟨[], fun _ => .idle⟩
      (chooseEvents 0 0 ++ [.makeAppointment 0 "first"] ++
        chooseEvents 1 1 ++ [.makeAppointment 1 "second"])).map
        (·.serviceEnrty.map (·.document.slot))
      = some [some ("anna", february2020 + 4 * 86400 + 36000),
        some ("anna", february2020 + 4 * 86400 + 39600)] := by decide
  obtain ⟨s, hs, hslots⟩ := Option.map_eq_some_iff.mp hrun
  have hreach : (bookingFrom []).Reachable s := EventMachine.reachable_of_exec _ rfl hs
  exact ⟨s, hreach, hslots, noDoubleBooking_iff_reach (by exact Ledger.consistent_nil) s hreach⟩

/-- **The double booking.** Both clients are answered before either of them writes. -/
theorem not_noDoubleBooking : ¬ ∀ s,
    (bookingFrom []).Reach (fun _ e => e.ForMaster) s → s.NoDoubleBooking := by
  intro hall
  have hrun : ((bookingFrom []).execWhere (fun _ e => e.ForMaster) ⟨[], fun _ => .idle⟩
      (chooseEvents 0 0 ++ chooseEvents 1 0 ++
        [.makeAppointment 0 "first", .makeAppointment 1 "second"])).map
        (·.serviceEnrty.map (·.document.slot))
      = some [some ("anna", february2020 + 4 * 86400 + 36000),
        some ("anna", february2020 + 4 * 86400 + 36000)] := by decide
  obtain ⟨s, hs, hslots⟩ := Option.map_eq_some_iff.mp hrun
  have hfree := hall s (EventMachine.reach_of_execWhere _ rfl hs)
  have hdocuments : (s.serviceEnrty.map (·.document)).map Document.slot
      = [some ("anna", february2020 + 4 * 86400 + 36000),
        some ("anna", february2020 + 4 * 86400 + 36000)] := by
    rw [List.map_map]
    exact hslots
  exact Ledger.not_consistent_of_map_eq (fun _ _ hp hq => ⟨_, hp, hq⟩) hdocuments hfree

/-! ## Clients at their screens

With any number of day taps, month changes and queries in flight the row that is booked has to be
rendered for the date that is booked, after an answer about it. -/

namespace ClientsState

def NoDoubleBooking (s : ClientsState) : Prop :=
  Ledger.Consistent SameSlot (s.serviceEnrty.map (·.document))

/-- When a client books, its row was rendered for the date of its screen, after an answer about this
date, and no document for its master and its time has been added since the server answered. -/
def Undisturbed (s : ClientsState) : ClientsEvent → Prop
  | .makeAppointment client _ => ∀ c ∈ s.clients client, c.screen.filled = true →
      ∃ r ∈ c.tapped, r.row.tested = c.screen.vc.dateEntry ∧
        ∃ a ∈ r.answers, a.About c.screen.vc.dateEntry ∧
          ∀ p ∈ s.serviceEnrty.drop a.seen, ∀ slot ∈ c.screen.vc.slot, p.document.slot ≠ some slot
  | .actionPresentMakeApp _ _ _ _ _ _ | .client _ _ | .exitAction _ => True

theorem noDoubleBooking_step {s s' : ClientsState} {e : ClientsEvent} (hi : s.Sound Set.univ)
    (hno : s.NoDoubleBooking) (hc : s.Undisturbed e) (h : s.step e = some s') :
    s'.NoDoubleBooking := by
  rcases step_cases hi (ClientsEvent.offersOnly_univ e) h with
    ⟨client, c?, -, -, rfl⟩ | ⟨client, documentID, rfl, hpress⟩
  · exact hno
  · obtain ⟨c, hclient, ⟨-, rfl⟩ | ⟨hfilled, entry, master, hmaster, hid, hdate, rfl⟩⟩ :=
      press_cases hpress
    · exact hno
    · obtain ⟨r, hr, htested, a, ha, habout, hsince⟩ := hc c hclient hfilled
      rw [← htested] at habout
      have hread := (hi client c hclient).ne_of_read hr ha habout
      have hslot : c.screen.vc.slot = some (entry.idMaster, entry.dttmEntry) := by
        rw [MakeAppointmentVC.slot, hmaster, Option.map_some, hid, hdate]
      rw [NoDoubleBooking, List.map_append]
      refine Ledger.consistent_append.mpr ⟨hno, ?_⟩
      rintro d hd ⟨slot, hd', hnew⟩
      obtain rfl : (entry.idMaster, entry.dttmEntry) = slot := Option.some.inj hnew
      obtain ⟨p, hp, rfl⟩ := List.mem_map.mp hd
      -- the document was there when the server answered, or it was added since
      rw [← List.take_append_drop a.seen s.serviceEnrty] at hp
      rcases List.mem_append.mp hp with hp | hp
      · refine hread p hp ?_
        rw [htested, ← hdate]
        exact dttmEntry_of_slot hd'
      · exact hsince p hp _ hslot hd'

end ClientsState

/-- **No double booking** in the runs in which every booking is undisturbed. -/
theorem noDoubleBooking_of_undisturbed {s : ClientsState}
    (h : visits.Reach ClientsState.Undisturbed s) : s.NoDoubleBooking := by
  have hinv : s.Sound Set.univ ∧ s.NoDoubleBooking := by
    refine h.invariant (fun s => s.Sound Set.univ ∧ s.NoDoubleBooking) ?_ ?_
    · intro s h0
      refine ⟨ClientsState.sound_init h0, ?_⟩
      obtain rfl := h0
      exact Ledger.consistent_nil
    · intro s e s' hi hc hs
      exact ⟨ClientsState.sound_step hi.1 (ClientsEvent.offersOnly_univ e) hs,
        ClientsState.noDoubleBooking_step hi.1 hi.2 hc hs⟩
  exact hinv.2

end Flamingo
