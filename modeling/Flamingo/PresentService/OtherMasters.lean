import Flamingo.PresentService.Booking
import Flamingo.PresentService.FreeRows

set_option autoImplicit false

/-! # The bookings of other masters

The time table is opened for a service and a master, but the query that is sent asks for every
document after the midnight of the selected day: `whereField` returns a new query, and those that
filter by the service and by the master are dropped. A start time is closed by any booking.
-/

namespace Flamingo

namespace CelendarVC

/-- A day is selected on the opened screen, and its query is answered from the collection. -/
def firstResponse (vc : CelendarVC) (row : Nat) (content : List Document) : Option CelendarVC := do
  let (vc, query) := vc.didSelectItemAt row
  let query ← query
  some (vc.receiveTimes (query.getDocuments content)).1

/-- The row of a start time cannot be tapped. -/
def Disabled (vc : CelendarVC) (now : Int) (row : Nat) (t : Int) : Prop :=
  ∃ vc' cell, vc.cellForRowAt now row = some (vc', cell) ∧ vc.rowDate row = some t ∧
    cell.isUserInteractionEnabled = false

/-- A start time whose row is disabled is past, or booked for the master of the screen. -/
def ClosedByOwn (vc : CelendarVC) (content : List Document) (now : Int) : Prop :=
  ∀ row t, vc.Disabled now row t →
    t < now ∨ ∃ d ∈ content, d.idMaster = some vc.master.id ∧ d.dttmEntry = some t

/-- Whoever books a future start time of the selected day, the master of the screen is booked for
it too. -/
def BookedByOwn (vc : CelendarVC) (content : List Document) (now : Int) : Prop :=
  ∀ row t, vc.rowDate row = some t → ¬ t < now → (∃ d ∈ content, d.dttmEntry = some t) →
    ∃ d ∈ content, d.idMaster = some vc.master.id ∧ d.dttmEntry = some t

/-! ## The first response -/

/-- The documents of the answer carry a time each, and all of these are blocked. -/
theorem firstResponse_spec {vc vc' : CelendarVC} {row : Nat} {content : List Document}
    (h : vc.firstResponse row content = some vc') :
    ∃ date, vc.dateOfCell row = some date ∧ vc'.dateDate = date ∧ vc'.master = vc.master ∧
      vc'.arrayDateSetviceEntry = vc.arrayDateSetviceEntry ∧
      ∀ t, t ∈ vc'.arrayTimesBlock ↔ t ∈ vc.arrayTimesBlock ∨
        ∃ d ∈ content, d.dttmEntry = some t ∧ date < t := by
  unfold firstResponse at h
  cases hdate : vc.dateOfCell row with
  | none =>
      rw [didSelectItemAt_of_none hdate] at h
      cases h
  | some date =>
      rw [didSelectItemAt_of_some hdate] at h
      simp only [Option.bind_eq_bind, Option.bind_some, Option.some.injEq] at h
      have htimes : ∀ d ∈ (vc.getTimesIsGreaterThan date).getDocuments content,
          ∃ t, d.data.timestamp? "dttmEntry" = some t := by
        intro d hd
        obtain ⟨-, t, ht, -⟩ := mem_getDocuments_iff.mp hd
        exact ⟨t, ht⟩
      rw [receiveTimes_eq, appendTimes_of_timestamps htimes, if_pos rfl] at h
      subst h
      refine ⟨date, rfl, rfl, rfl, rfl, ?_⟩
      intro t
      rw [List.mem_append, List.mem_filterMap]
      refine or_congr_right ?_
      constructor
      · rintro ⟨d, hd, ht⟩
        obtain ⟨hmem, t', ht', hlt⟩ := mem_getDocuments_iff.mp hd
        obtain rfl := Option.some.inj (ht'.symm.trans ht)
        exact ⟨d, hmem, ht, hlt⟩
      · rintro ⟨d, hmem, ht, hlt⟩
        exact ⟨d, mem_getDocuments_iff.mpr ⟨hmem, t, ht, hlt⟩, ht⟩

/-- A row is disabled if its time is past or blocked. -/
theorem disabled_iff {vc : CelendarVC} {now : Int} {row : Nat} {t : Int}
    (hrow : vc.rowDate row = some t) :
    vc.Disabled now row t ↔ t < now ∨ t ∈ vc.arrayTimesBlock := by
  obtain ⟨dateTime, hdateTime, ht⟩ := Option.map_eq_some_iff.mp hrow
  constructor
  · rintro ⟨vc', cell, hcell, -, hdisabled⟩
    obtain ⟨dateTime', t', hdateTime', ht', -, henabled, -⟩ := cellForRowAt_spec hcell
    obtain rfl := Option.some.inj (hdateTime.symm.trans hdateTime')
    obtain rfl : t = t' := ht.symm.trans ht'.symm
    by_contra hnot
    rw [not_or] at hnot
    rw [henabled.mpr hnot] at hdisabled
    cases hdisabled
  · intro hclosed
    have hsome : (vc.cellForRowAt now row).isSome = true := by
      simp only [cellForRowAt, hdateTime, Option.bind_eq_bind, Option.bind_some]
      split_ifs <;> rfl
    obtain ⟨⟨vc', cell⟩, hcell⟩ := Option.isSome_iff_exists.mp hsome
    obtain ⟨dateTime', t', hdateTime', ht', -, henabled, -⟩ := cellForRowAt_spec hcell
    obtain rfl := Option.some.inj (hdateTime.symm.trans hdateTime')
    obtain rfl : t = t' := ht.symm.trans ht'.symm
    refine ⟨vc', cell, hcell, hrow, ?_⟩
    rw [← Bool.not_eq_true, henabled]
    rintro ⟨hfuture, hfree⟩
    exact hclosed.elim hfuture hfree

/-- On the selected day a freshly opened screen blocks the start times that any document has. -/
theorem mem_blocked_iff {now monthFinish month year : Int} {service : Service} {master : Master}
    {vc vc' : CelendarVC} {row : Nat} {content : List Document}
    (hload : viewDidLoad now monthFinish month year service master = some vc)
    (h : vc.firstResponse row content = some vc') {slot : Nat} {t : Int}
    (hslot : vc'.rowDate slot = some t) :
    t ∈ vc'.arrayTimesBlock ↔ ∃ d ∈ content, d.dttmEntry = some t := by
  obtain ⟨date, hdate, hsel, -, hentries, hblocked⟩ := firstResponse_spec h
  obtain ⟨-, -, hfresh, -, hslots⟩ := viewDidLoad_spec hload
  rw [hblocked, hfresh]
  -- every start time is after the midnight that the query begins at
  have hafter : date < t := by
    obtain ⟨dateTime, hdateTime, ht⟩ := Option.map_eq_some_iff.mp hslot
    rw [hentries] at hdateTime
    have hopen := (time_of_mem_createDataEntry hslots dateTime (List.mem_of_getElem? hdateTime)).1
    have hmidnight := Date.ofMasks_day_time date
    rw [CalendarState.time_of_dateOfCell hdate] at hmidnight
    calc date
        = Date.ofMasks (Date.day date) 0 := hmidnight.symm
      _ < Date.ofMasks (Date.day date) (Date.time dateTime) := by
          simp only [Date.ofMasks]
          omega
      _ = t := by rw [← ht, hsel]
  constructor
  · rintro (hnil | ⟨d, hd, ht, -⟩)
    · cases hnil
    · exact ⟨d, hd, ht⟩
  · rintro ⟨d, hd, ht⟩
    exact Or.inr ⟨d, hd, ht, hafter⟩

end CelendarVC

/-! ## The rows of a master -/

/-- The screen for the master "anna", opened in February 2020; the fifth is selected. -/
def annaOnTheFifth (content : List Document) : Option CelendarVC :=
  (CelendarVC.viewDidLoad february2020 2 1 2020 hourService { id := "anna" }).bind
    (fun vc => vc.firstResponse 9 content)

/-- The fifth at 10:00 is booked for a master. -/
def bookedFor (idMaster : String) : Document :=
  ⟨"entry", saveServiceEntryToFirebase
    { dttmEntry := february2020 + 4 * 86400 + 36000, idMaster := idMaster }⟩

/-- Her row of 10:00 is closed, whoever that is. -/
theorem annaOnTheFifth_bookedFor (idMaster : String) :
    ∃ vc', annaOnTheFifth [bookedFor idMaster] = some vc' ∧ vc'.master.id = "anna" ∧
      vc'.Disabled february2020 0 (february2020 + 4 * 86400 + 36000) := by
  have hrun : (annaOnTheFifth [bookedFor idMaster]).map
      (fun vc => (vc.master.id, vc.rowDate 0, vc.arrayTimesBlock)) = some ("anna",
        some (february2020 + 4 * 86400 + 36000), [february2020 + 4 * 86400 + 36000]) := by rfl
  obtain ⟨vc', hvc', hend⟩ := Option.map_eq_some_iff.mp hrun
  simp only [Prod.mk.injEq] at hend
  obtain ⟨hmaster, hrow, hblocked⟩ := hend
  exact ⟨vc', hvc', hmaster, (CelendarVC.disabled_iff hrow).mpr (Or.inr (by rw [hblocked]; simp))⟩

end Flamingo
