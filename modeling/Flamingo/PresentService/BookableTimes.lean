import Flamingo.PresentService.Overlap

set_option autoImplicit false

/-! # The times that can be booked

A run of the clients can put a document for a service at some times only: the start times of the
service, on the days that have a cell in the grid of their month. Every other time is out of reach,
in every run; and each of these times is booked in some run. The table of the month lengths gives
February 28 days, so no service is ever booked on a leap day.
-/

namespace Flamingo

/-- The time of day is a start time of the service. -/
def Service.StartsAt (service : Service) (time : Int) : Prop :=
  ∃ T, 0 < T ∧ timeIntervalMinute service.timeService = .minutes T ∧
    ∃ k : Nat, k * T < 600 ∧ time = 36000 + k * (60 * T)

/-- Some client books the service for this time in some run. -/
def Service.Bookable (service : Service) (t : Int) : Prop :=
  ∃ s, visits.Reachable s ∧
    ∃ p ∈ s.serviceEnrty, p.service = service ∧ p.document.dttmEntry = some t

/-! ## The times of a run -/

theorem minutes_of_mem_createDataEntry {today d : Int} {timeService : String} {slots : List Int}
    (h : createDataEntry today timeService = some slots) (hd : d ∈ slots) :
    ∃ T, 0 < T ∧ timeIntervalMinute timeService = .minutes T := by
  unfold createDataEntry at h
  cases hread : timeIntervalMinute timeService with
  | trap => simp [hread] at h
  | unreadable =>
      simp only [hread, Option.some.injEq] at h
      rw [← h] at hd
      cases hd
  | minutes T =>
      refine ⟨T, ?_, rfl⟩
      by_contra hT
      simp only [hread, hourOfToday] at h
      rw [appendEntries_diverges _ T (by omega) loopBound _
        (by simp only [Date.ofMasks]; omega)] at h
      cases h

theorem startsAt_of_onGrid {service : Service} {t : Int} (h : OnGrid service t) :
    service.StartsAt (Date.time t) := by
  obtain ⟨T, hT, hread⟩ : ∃ T, 0 < T ∧ timeIntervalMinute service.timeService = .minutes T := by
    obtain ⟨today, slots, hslots, dateTime, hmem, -⟩ := h
    exact minutes_of_mem_createDataEntry hslots hmem
  obtain ⟨day, k, hk, rfl⟩ := slot_of_onGrid hT hread h
  refine ⟨T, hT, hread, k, (lt_slotCount_iff hT k).mp hk, ?_⟩
  have hstart : Slots.start Date.secondsOfDay 36000 (60 * T) day k
      = Date.ofMasks day (36000 + k * (60 * T)) := by
    unfold Slots.start Date.ofMasks
    ring
  have htime : Date.time (slot 0 T k) = 36000 + k * (60 * T) := slot_time hT hk
  rw [hstart]
  have hbound : 36000 + (k : Int) * (60 * T) < Date.secondsOfDay ∧
      0 ≤ 36000 + (k : Int) * (60 * T) := by
    rw [← htime]
    exact ⟨Int.emod_lt_of_pos _ (by decide), Int.emod_nonneg _ (by decide)⟩
  exact Date.time_ofMasks hbound.2 hbound.1

/-! ## The times that are booked -/

/-- **The times that can be booked** are the start times of the service on every day but the leap
days. -/
theorem bookable_iff (service : Service) (t : Int) :
    service.Bookable t ↔ ¬ LeapDay t ∧ service.StartsAt (Date.time t) := by
  constructor
  · rintro ⟨s, hs, p, hp, rfl, ht⟩
    obtain ⟨-, hgrids⟩ := ClientsState.onGrids_of_reach
      (fun _ e _ => ClientsEvent.offersOnly_univ e) hs
    obtain ⟨-, t', ht', hgrid, hday⟩ := hgrids p hp
    obtain rfl := Option.some.inj (ht.symm.trans ht')
    exact ⟨hday, startsAt_of_onGrid hgrid⟩
  · rintro ⟨hday, T, hT, hread, k, hk, htime⟩
    have hmidnight : Date.day (Date.midnight (Date.day t)) = Date.day t := by
      unfold Date.midnight
      exact Int.mul_ediv_cancel _ (by decide)
    have hn : ¬ LeapDay (Date.midnight (Date.day t)) := by
      rw [LeapDay, hmidnight]
      exact hday
    have ht : Date.ofMasks (Date.day t) (36000 + k * (60 * T)) = t := by
      rw [← htime, Date.ofMasks_day_time]
    -- a client books it in the empty collection
    obtain ⟨s, document, hs, -, hposted, -, hdate⟩ :=
      ClientsState.exists_booking (Set.mem_univ service) hT hread
        ((lt_slotCount_iff hT k).mpr hk) hn ht (.init rfl) rfl
        (fun p hp => absurd hp List.not_mem_nil)
    exact ⟨s, hs.reachable, ⟨document, service⟩, by rw [hposted]; simp, rfl, hdate⟩

end Flamingo
