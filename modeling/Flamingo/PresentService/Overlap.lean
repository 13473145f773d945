import Flamingo.Lib.Slots
import Flamingo.PresentService.FreeTimes

set_option autoImplicit false

/-! # Overlapping bookings

The start times of a service lie on a grid of the service's own duration, while a taken time
blocks a start time only if it is equal to it. So even if the clients book strictly one after the
other, two bookings of a master overlap when their services have different durations, and the
last booking of a day goes on after 20:00 when the duration does not divide the ten hours of the
working day. With one duration that divides them, the bookings are slots of one grid.

One after the other means that the booked row was compared with an answer about its own date. A late
answer for another day shows the rows as well, and a row that was compared with it only is booked a
second time (`overlap_of_lateAnswer`).
-/

namespace Flamingo

/-- The time from `dttmEntry` on that the booked service takes. -/
def Posted.interval (p : Posted) : Option (Int × Int) :=
  match p.document.dttmEntry, timeIntervalMinute p.service.timeService with
  | some t, .minutes T => some (t, t + 60 * T)
  | _, _ => none

/-- Two bookings of the same master, which has an id, share a moment. -/
def Overlap (p q : Posted) : Prop :=
  ∃ idMaster, idMaster ≠ "" ∧ p.document.idMaster = some idMaster ∧
    q.document.idMaster = some idMaster ∧
    ∃ i j, p.interval = some i ∧ q.interval = some j ∧
      ¬ Disjoint (Set.Ico i.1 i.2) (Set.Ico j.1 j.2)

namespace ClientsState

def NeverOverlaps (s : ClientsState) : Prop := Ledger.Consistent Overlap s.serviceEnrty

/-- The bookings of a master with an id lie between 10:00 and 20:00 of their day. -/
def InsideWorkingDay (s : ClientsState) : Prop :=
  ∀ p ∈ s.serviceEnrty, ∀ idMaster, p.document.idMaster = some idMaster → idMaster ≠ "" →
    ∀ i, p.interval = some i →
      Date.ofMasks (Date.day i.1) 36000 ≤ i.1 ∧ i.2 ≤ Date.ofMasks (Date.day i.1) 72000

end ClientsState

/-! ## One duration -/

/-- A start time of a service of `T` minutes. -/
theorem slot_of_onGrid {service : Service} {T t : Int} (hT : 0 < T)
    (hread : timeIntervalMinute service.timeService = .minutes T) (h : OnGrid service t) :
    ∃ day k, k < slotCount T ∧ t = Slots.start Date.secondsOfDay 36000 (60 * T) day k := by
  obtain ⟨today, slots, hslots, dateTime, hmem, day, rfl⟩ := h
  rw [createDataEntry_eq today hT hread, Option.some.injEq] at hslots
  subst hslots
  obtain ⟨k, hk, rfl⟩ := List.mem_map.mp hmem
  have hk' : k < slotCount T := List.mem_range.mp hk
  refine ⟨day, k, hk', ?_⟩
  rw [slot_time hT hk', Slots.start, Date.ofMasks]
  ring

/-- If the duration divides the ten hours, the last slot ends at 20:00. -/
theorem slot_end_le {T : Int} (hT : 0 < T) (hdvd : T ∣ 600) {k : Nat} (hk : k < slotCount T) :
    36000 + ((k : Int) + 1) * (60 * T) ≤ 72000 := by
  obtain ⟨c, hc⟩ := hdvd
  have hlt : (k : Int) * T < 600 := (lt_slotCount_iff hT k).mp hk
  have hkc : (k : Int) < c := by
    by_contra hcon
    have hle : c * T ≤ k * T := mul_le_mul_of_nonneg_right (by omega) hT.le
    rw [mul_comm c T, ← hc] at hle
    omega
  have hle : ((k : Int) + 1) * T ≤ c * T := mul_le_mul_of_nonneg_right (by omega) hT.le
  calc 36000 + ((k : Int) + 1) * (60 * T)
      = 36000 + 60 * ((k + 1) * T) := by ring
    _ ≤ 36000 + 60 * (c * T) := by linarith
    _ = 36000 + 60 * 600 := by rw [mul_comm c T, ← hc]
    _ = 72000 := by norm_num

namespace ClientsState

variable {catalogue : Set Service} {T : Int}

/-- The slot that a booking of the catalogue takes. -/
theorem slot_of_interval (hT : 0 < T)
    (hread : ∀ service ∈ catalogue, timeIntervalMinute service.timeService = .minutes T)
    {p : Posted} {i : Int × Int} (hp : p.service ∈ catalogue)
    (hgrid : ∃ t, p.document.dttmEntry = some t ∧ OnGrid p.service t ∧ ¬ LeapDay t)
    (hi : p.interval = some i) :
    ∃ day k, k < slotCount T ∧ p.document.dttmEntry = some i.1 ∧
      i.1 = Slots.start Date.secondsOfDay 36000 (60 * T) day k ∧ i.2 = i.1 + 60 * T := by
  obtain ⟨t, ht, hon, -⟩ := hgrid
  obtain ⟨day, k, hk, hstart⟩ := slot_of_onGrid hT (hread p.service hp) hon
  rw [Posted.interval, ht, hread p.service hp] at hi
  obtain rfl := Option.some.inj hi
  exact ⟨day, k, hk, ht, hstart, rfl⟩

/-- A booking for a time that no document has overlaps none. -/
theorem not_overlap_of_ne (hT : 0 < T) (hdvd : T ∣ 600)
    (hread : ∀ service ∈ catalogue, timeIntervalMinute service.timeService = .minutes T)
    {p q : Posted} (hp : p.service ∈ catalogue) (hq : q.service ∈ catalogue)
    (hpgrid : ∃ t, p.document.dttmEntry = some t ∧ OnGrid p.service t ∧ ¬ LeapDay t)
    (hqgrid : ∃ t, q.document.dttmEntry = some t ∧ OnGrid q.service t ∧ ¬ LeapDay t)
    (hne : p.document.dttmEntry ≠ q.document.dttmEntry) : ¬ Overlap p q := by
  rintro ⟨idMaster, -, -, -, i, j, hi, hj, hoverlap⟩
  obtain ⟨day, k, hk, hpi, hstart, hend⟩ := slot_of_interval hT hread hp hpgrid hi
  obtain ⟨day', k', hk', hqj, hstart', hend'⟩ := slot_of_interval hT hread hq hqgrid hj
  apply hoverlap
  rw [hend, hend', hstart, hstart']
  refine Slots.disjoint_slot (b := 72000) (by decide) (by decide) (by decide) (by omega)
    (slot_end_le hT hdvd hk) (slot_end_le hT hdvd hk') ?_
  rw [← hstart, ← hstart']
  intro heq
  exact hne (by rw [hpi, hqj, heq])

/-- **A checked press** books a time that no document has. -/
theorem ne_of_checked {s : ClientsState} {client : Nat} {c : Client} (hi : s.Sound catalogue)
    (hc : s.clients client = some c) (hchecked : c.Checked s.serviceEnrty.length) :
    ∀ p ∈ s.serviceEnrty, p.document.dttmEntry ≠ some c.screen.vc.dateEntry := by
  obtain ⟨r, hr, htested, a, ha, hall, habout⟩ := hchecked
  rw [← htested] at habout ⊢
  have hread := (hi client c hc).ne_of_read hr ha habout
  -- the server had read all documents
  rw [List.take_of_length_le hall] at hread
  exact hread

/-- **The bookings of one duration are a ledger without overlaps**: run one after another, they
refine the machine that appends what conflicts with nothing. -/
theorem visits_refine_ledger (hT : 0 < T) (hdvd : T ∣ 600)
    (hread : ∀ service ∈ catalogue, timeIntervalMinute service.timeService = .minutes T) :
    EventMachine.Refines visits (SerialOf catalogue) (Ledger.machine Overlap)
      (fun s => s.Sound catalogue ∧ s.OnGrids catalogue) (·.serviceEnrty) where
  inv_init s h0 := by
    refine ⟨sound_init h0, ?_⟩
    obtain rfl := h0
    exact fun p hp => absurd hp List.not_mem_nil
  inv_step s e s' hi hc h :=
    ⟨sound_step hi.1 hc.2 h, onGrids_step hi.1 hi.2 hc.2 h⟩
  init s h0 := by
    obtain rfl := h0
    exact Ledger.consistent_nil
  step s e s' hi hc h := by
    have hafter := onGrids_step hi.1 hi.2 hc.2 h
    rcases step_cases hi.1 hc.2 h with ⟨client, c?, -, -, rfl⟩ | ⟨client, documentID, rfl, hpress⟩
    · exact Or.inl rfl
    · obtain ⟨c, hclient, ⟨-, rfl⟩ | ⟨hfilled, entry, master, -, -, hdate, rfl⟩⟩ :=
        press_cases hpress
      · exact Or.inl rfl
      · refine Or.inr ⟨_, Ledger.machine_step ?_⟩
        intro p hp
        obtain ⟨hpservice, hpgrid⟩ := hafter p (List.mem_append_left _ hp)
        obtain ⟨hqservice, hqgrid⟩ :=
          hafter _ (List.mem_append_right _ (List.mem_singleton_self _))
        refine not_overlap_of_ne hT hdvd hread hpservice hqservice hpgrid hqgrid ?_
        have hne := ne_of_checked hi.1 hclient (hc.1 c hclient hfilled) p hp
        rw [← hdate] at hne
        exact hne

theorem insideWorkingDay_of_onGrids (hT : 0 < T) (hdvd : T ∣ 600)
    (hread : ∀ service ∈ catalogue, timeIntervalMinute service.timeService = .minutes T)
    {s : ClientsState} (h : s.OnGrids catalogue) : s.InsideWorkingDay := by
  intro p hp idMaster _ _ i hi
  obtain ⟨hservice, hgrid⟩ := h p hp
  obtain ⟨day, k, hk, -, hstart, hend⟩ := slot_of_interval hT hread hservice hgrid hi
  have hle := slot_end_le hT hdvd hk
  have hnonneg : (0 : Int) ≤ k * (60 * T) := by positivity
  have hexp : ((k : Int) + 1) * (60 * T) = k * (60 * T) + 60 * T := by ring
  have hday : Date.day i.1 = day := by
    rw [hstart, Slots.start, add_assoc]
    exact Date.day_ofMasks (by omega) (by simp only [Date.secondsOfDay]; omega)
  rw [hday, hend, hstart]
  simp only [Slots.start, Date.ofMasks]
  omega

end ClientsState

/-! ## What the property demands of the durations -/

/-- The midnight that begins the fifth of February 2020. -/
def fifth : Int := Date.midnight (Date.dayNumber 2020 2 5)

theorem not_leapDay_fifth : ¬ LeapDay (Date.midnight (Date.dayNumber 2020 2 5)) := by
  unfold LeapDay
  decide

theorem ofMasks_fifth (time : Int) : Date.ofMasks (Date.dayNumber 2020 2 5) time = fifth + time := rfl

namespace ClientsState

variable {catalogue : Set Service} {T : Int}

theorem interval_of_booking {document : Document} {service : Service} {t : Int}
    (hdate : document.dttmEntry = some t)
    (hread : timeIntervalMinute service.timeService = .minutes T) :
    (⟨document, service⟩ : Posted).interval = some (t, t + 60 * T) := by
  simp only [Posted.interval, hdate, hread]

/-- The last start time of a day is booked: its interval ends by 20:00 only if the duration divides
the ten hours. -/
theorem dvd_of_insideWorkingDay {service : Service} (hservice : service ∈ catalogue) (hT : 0 < T)
    (hread : timeIntervalMinute service.timeService = .minutes T)
    (hall : ∀ s, visits.Reach (SerialOf catalogue) s → s.InsideWorkingDay) :
    T ∣ 600 := by
  have hfirst : 0 < slotCount T := (lt_slotCount_iff hT 0).mpr (by norm_num)
  obtain ⟨k, hk⟩ : ∃ k, slotCount T = k + 1 := ⟨slotCount T - 1, by omega⟩
  have hlast : ¬ ((k + 1 : Nat) : Int) * T < 600 := fun hlt =>
    absurd ((lt_slotCount_iff hT (k + 1)).mpr hlt) (by omega)
  obtain ⟨s, document, hs, -, hposted, hmaster, hdate⟩ :=
    exists_booking (k := k) hservice hT hread (by omega) not_leapDay_fifth (ofMasks_fifth _) (.init rfl) rfl
      (fun p hp => absurd hp List.not_mem_nil)
  obtain ⟨-, hend⟩ := hall s hs ⟨document, service⟩ (by rw [hposted]; simp) "anna" hmaster
    (by decide) _ (interval_of_booking hdate hread)
  have hlt : (k : Int) * T < 600 := (lt_slotCount_iff hT k).mp (by omega)
  have hnonneg : (0 : Int) ≤ k * T := by positivity
  have hexp : (k : Int) * (60 * T) = 60 * (k * T) := by ring
  have hday : Date.day (fifth + (36000 + k * (60 * T))) = Date.dayNumber 2020 2 5 :=
    Date.day_ofMasks (by omega) (by simp only [Date.secondsOfDay]; omega)
  rw [hday, ofMasks_fifth] at hend
  push_cast at hlast
  have hsum : ((k : Int) + 1) * T = k * T + T := by ring
  refine ⟨k + 1, ?_⟩
  rw [mul_comm T, hsum]
  omega

/-- A service is booked at 10:00 and then a shorter one at its second start time, which lies in the
first booking. -/
theorem not_lt_of_neverOverlaps {service service' : Service} {T' : Int}
    (hservice : service ∈ catalogue) (hservice' : service' ∈ catalogue) (hT : 0 < T)
    (hread : timeIntervalMinute service.timeService = .minutes T)
    (hread' : timeIntervalMinute service'.timeService = .minutes T') (hdvd : T' ∣ 600)
    (hall : ∀ s, visits.Reach (SerialOf catalogue) s → s.NeverOverlaps) :
    ¬ T < T' := by
  intro hlt
  have hle : T' ≤ 600 := Int.le_of_dvd (by norm_num) hdvd
  obtain ⟨s, document, hs, hnone, hposted, hmaster, hdate⟩ :=
    exists_booking (k := 0) hservice' (by omega) hread'
      ((lt_slotCount_iff (by omega) 0).mpr (by norm_num)) not_leapDay_fifth (ofMasks_fifth _) (.init rfl) rfl
      (fun p hp => absurd hp List.not_mem_nil)
  have hfree : ∀ p ∈ s.serviceEnrty,
      p.document.dttmEntry ≠ some (fifth + (36000 + (1 : Nat) * (60 * T))) := by
    rw [hposted]
    intro p hp
    obtain rfl := List.mem_singleton.mp hp
    rw [hdate]
    intro heq
    simp only [Option.some.injEq] at heq
    push_cast at heq
    omega
  obtain ⟨s₂, document₂, hs₂, -, hposted₂, hmaster₂, hdate₂⟩ :=
    exists_booking (k := 1) hservice hT hread ((lt_slotCount_iff hT 1).mpr (by push_cast; omega))
      not_leapDay_fifth (ofMasks_fifth _) hs hnone hfree
  have hledger := hall s₂ hs₂
  rw [NeverOverlaps, hposted₂, Ledger.consistent_append, hposted] at hledger
  refine hledger.2 ⟨document, service'⟩ (by simp) ⟨"anna", by decide, hmaster, hmaster₂, _, _,
    interval_of_booking hdate hread', interval_of_booking hdate₂ hread, ?_⟩
  refine Set.not_disjoint_iff.mpr
    ⟨fifth + (36000 + (1 : Nat) * (60 * T)), ?_, ?_⟩ <;>
    rw [Set.mem_Ico] <;> push_cast <;> omega

end ClientsState

/-! ## The runs of the clients -/

/-- **Serialised bookings never overlap** and stay inside the working day, for the services of a
catalogue, exactly if all of them have the same duration and it divides the ten hours of the
working day. -/
theorem neverOverlaps_iff (catalogue : Set Service)
    (hpos : ∀ service ∈ catalogue,
      ∃ T, 0 < T ∧ timeIntervalMinute service.timeService = .minutes T) :
    (∀ s, visits.Reach (ClientsState.SerialOf catalogue) s →
      s.NeverOverlaps ∧ s.InsideWorkingDay) ↔
    ∃ T, T ∣ 600 ∧ ∀ service ∈ catalogue, timeIntervalMinute service.timeService = .minutes T := by
  constructor
  · intro hall
    have hdvd : ∀ service ∈ catalogue, ∀ T, 0 < T →
        timeIntervalMinute service.timeService = .minutes T → T ∣ 600 :=
      fun service hservice T hT hread =>
        ClientsState.dvd_of_insideWorkingDay hservice hT hread (fun s hs => (hall s hs).2)
    rcases catalogue.eq_empty_or_nonempty with rfl | ⟨service, hservice⟩
    · exact ⟨1, one_dvd _, fun service hservice => absurd hservice (Set.notMem_empty service)⟩
    · obtain ⟨T, hT, hread⟩ := hpos service hservice
      refine ⟨T, hdvd service hservice T hT hread, fun service' hservice' => ?_⟩
      obtain ⟨T', hT', hread'⟩ := hpos service' hservice'
      have hle : ¬ T < T' := ClientsState.not_lt_of_neverOverlaps hservice hservice' hT hread hread'
        (hdvd service' hservice' T' hT' hread') (fun s hs => (hall s hs).1)
      have hge : ¬ T' < T := ClientsState.not_lt_of_neverOverlaps hservice' hservice hT' hread'
        hread (hdvd service hservice T hT hread) (fun s hs => (hall s hs).1)
      rw [hread', show T' = T by omega]
  · rintro ⟨T, hdvd, hread⟩ s hs
    obtain ⟨T', hT', hdvd', hread'⟩ : ∃ T', 0 < T' ∧ T' ∣ 600 ∧
        ∀ service ∈ catalogue, timeIntervalMinute service.timeService = .minutes T' := by
      rcases catalogue.eq_empty_or_nonempty with rfl | ⟨service, hservice⟩
      · -- nothing is offered: one may as well read one minute
        exact ⟨1, one_pos, one_dvd _, fun service hservice => absurd hservice (Set.notMem_empty service)⟩
      · obtain ⟨T', hT', hread'⟩ := hpos service hservice
        have hT : 0 < T := by
          rw [hread service hservice, TimeInterval.minutes.injEq] at hread'
          omega
        exact ⟨T, hT, hdvd, hread⟩
    obtain ⟨⟨-, hgrid⟩, hledger⟩ :=
      (ClientsState.visits_refine_ledger hT' hdvd' hread').reachable hs
    exact ⟨Ledger.consistent_of_reachable hledger,
      ClientsState.insideWorkingDay_of_onGrids hT' hdvd' hread' hgrid⟩

/-- A service of an hour and a half and one of three quarters of an hour. -/
def longService : Service := { id := "long", timeService := "1:30" }

def shortService : Service := { id := "short", timeService := "0:45" }

/-- A client comes to the screen of a service and opens the calendar of February 2020 for the
master. -/
def arriveEvents (client : Nat) (service : Service) : List ClientsEvent :=
  [.actionPresentMakeApp client february2020 service [{ id := "anna" }] "Client"
      "+7 (900) 000-00-0",
    .client client (.scroll [1]), .client client (.openCalendar february2020 2 1 2020)]

/-- It taps the fifth, is answered from the whole collection, and books a row. -/
def bookEvents (client row : Nat) (documents : List Document) : List ClientsEvent :=
  [.client client (.tapDay 9 february2020),
    .client client (.response 0 documents.length documents),
    .client client (.render row february2020), .client client (.tapTime row),
    .makeAppointment client ""]

/-- The document of a booking of the service on the fifth. -/
def bookedOnFifth (service : Service) (time : Int) : Document :=
  ⟨"", saveServiceEntryToFirebase {
    serviceName := service.nameService, serviceIdDocument := service.id, nameClient := "Client"
    numberPhoneClient := "+7 (900) 000-00-0", idMaster := "anna"
    dttmEntry := fifth + time, price := service.placeService }⟩

/-- Two clients book services of an hour, at 10:00 and at 19:00. -/
theorem neverOverlaps_hours : ∃ s,
    visits.Reach (ClientsState.SerialOf {service | service = hourService}) s ∧
    s.serviceEnrty.map (·.interval)
      = [some (fifth + 36000, fifth + 39600),
        some (fifth + 68400, fifth + 72000)] ∧
    s.NeverOverlaps ∧ s.InsideWorkingDay := by
  have hrun : (visits.execWhere (ClientsState.SerialOf {service | service = hourService})
      ⟨[], fun _ => none⟩ (arriveEvents 0 hourService ++ bookEvents 0 0 [] ++
        arriveEvents 1 hourService ++ bookEvents 1 9 [bookedOnFifth hourService 36000])).map
        (·.serviceEnrty.map (·.interval))
      = some [some (fifth + 36000, fifth + 39600),
        some (fifth + 68400, fifth + 72000)] := by decide
  obtain ⟨s, hs, hintervals⟩ := Option.map_eq_some_iff.mp hrun
  have hreach := EventMachine.reach_of_execWhere _ rfl hs
  have hread : timeIntervalMinute hourService.timeService = .minutes 60 := by decide
  refine ⟨s, hreach, hintervals, (neverOverlaps_iff _ ?_).mpr ⟨60, by decide, ?_⟩ s hreach⟩
  · rintro service rfl
    exact ⟨60, by decide, hread⟩
  · rintro service rfl
    exact hread

/-- **The overlap.** The long service is booked at 10:00 and then, by another client, the short one
at 10:45. -/
theorem not_neverOverlaps : ¬ ∀ catalogue : Set Service,
    (∀ service ∈ catalogue, ∃ T, 0 < T ∧ timeIntervalMinute service.timeService = .minutes T) →
    ∀ s, visits.Reach (ClientsState.SerialOf catalogue) s →
      s.NeverOverlaps ∧ s.InsideWorkingDay := by
  intro hall
  have hrun : (visits.execWhere
      (ClientsState.SerialOf {service | service = longService ∨ service = shortService})
      ⟨[], fun _ => none⟩ (arriveEvents 0 longService ++ bookEvents 0 0 [] ++
        arriveEvents 1 shortService ++ bookEvents 1 1 [bookedOnFifth longService 36000])).map
        (·.serviceEnrty.map (fun p => (p.document.idMaster, p.interval)))
      = some [(some "anna", some (fifth + 36000, fifth + 41400)),
        (some "anna", some (fifth + 38700, fifth + 41400))] := by decide
  obtain ⟨s, hs, hposted⟩ := Option.map_eq_some_iff.mp hrun
  obtain ⟨hnever, -⟩ := hall _ (by
    rintro service (rfl | rfl)
    · exact ⟨90, by decide, by decide⟩
    · exact ⟨45, by decide, by decide⟩) s (EventMachine.reach_of_execWhere _ rfl hs)
  refine Ledger.not_consistent_of_map_eq ?_ hposted hnever
  intro p q hp hq
  obtain ⟨hmaster, hinterval⟩ := Prod.mk.inj hp
  obtain ⟨hmaster', hinterval'⟩ := Prod.mk.inj hq
  refine ⟨"anna", by decide, hmaster, hmaster', _, _, hinterval, hinterval', ?_⟩
  rw [Set.Ico_disjoint_Ico]
  decide

/-! ## Late answers

One duration that divides the ten hours is not enough if a row may be booked that no answer about
its time was handled for. The answers to the queries of two days arrive in any order, and the first
of them shows the time table. -/

/-- When a client books, all answers that it had handled were given after the last document had been
added, whichever days they are about. -/
def ClientsState.Later (s : ClientsState) : ClientsEvent → Prop
  | .makeAppointment client _ => ∀ c ∈ s.clients client, c.screen.filled = true →
      ∃ r ∈ c.tapped, ∀ a ∈ r.answers, s.serviceEnrty.length ≤ a.seen
  | .actionPresentMakeApp _ _ _ _ _ _ | .client _ _ | .exitAction _ => True

instance (s : ClientsState) (e : ClientsEvent) : Decidable (s.Later e) :=
  match e with
  | .makeAppointment client _ => inferInstanceAs (Decidable (∀ c ∈ s.clients client,
      c.screen.filled = true → ∃ r ∈ c.tapped, ∀ a ∈ r.answers, s.serviceEnrty.length ≤ a.seen))
  | .actionPresentMakeApp _ _ _ _ _ _ | .client _ _ | .exitAction _ =>
      inferInstanceAs (Decidable True)

/-- The twentieth is tapped and then the fifth. The answer for the twentieth comes first, and 10:00
on the fifth, which is taken, is booked again. -/
theorem overlap_of_lateAnswer : ∃ s,
    visits.Reach (fun s e => s.Later e ∧ e.OffersOnly {service | service = hourService}) s ∧
    ¬ s.NeverOverlaps := by
  have hrun : (visits.execWhere
      (fun s e => s.Later e ∧ e.OffersOnly {service | service = hourService})
      ⟨[], fun _ => none⟩ (arriveEvents 0 hourService ++ bookEvents 0 0 [] ++
        arriveEvents 1 hourService ++ [.client 1 (.tapDay 24 february2020),
          .client 1 (.tapDay 9 february2020), .client 1 (.response 0 1 []),
          .client 1 (.render 0 february2020), .client 1 (.tapTime 0), .makeAppointment 1 ""])).map
        (·.serviceEnrty.map (fun p => (p.document.idMaster, p.interval)))
      = some [(some "anna", some (fifth + 36000, fifth + 39600)),
        (some "anna", some (fifth + 36000, fifth + 39600))] := by decide
  obtain ⟨s, hs, hposted⟩ := Option.map_eq_some_iff.mp hrun
  refine ⟨s, EventMachine.reach_of_execWhere _ rfl hs, ?_⟩
  refine Ledger.not_consistent_of_map_eq ?_ hposted
  intro p q hp hq
  obtain ⟨hmaster, hinterval⟩ := Prod.mk.inj hp
  obtain ⟨hmaster', hinterval'⟩ := Prod.mk.inj hq
  refine ⟨"anna", by decide, hmaster, hmaster', _, _, hinterval, hinterval', ?_⟩
  rw [Set.Ico_disjoint_Ico]
  decide

end Flamingo
