import Flamingo.DBManager.ModelDataBase
import Flamingo.DBManager.DataEntry

set_option autoImplicit false

/-! # The calendar screen

`CelendarVC` lets the client choose a day of the month grid and one of the start times of the
service on that day. The state holds the fields of the controller, the attributes of its
outlets that its code sets, and the globals `month` and `year`. A text shown by a label is
represented by what it denotes (`Foundation/Date.lean`). A result `none` is a trap: an index
out of range or a forced `nil`.

The chain of `whereField` calls of `getTimesIsGreaterThan` is kept as it is written: a query is
immutable, the results of the second and the third call are dropped, and the query that is sent
filters by the time alone.
-/

namespace Flamingo

def arrayMonth : List String :=
  ["Январь", "Февраль", "Март", "Апрель", "Май", "Июнь", "Июль", "Август", "Сентябрь",
    "Октябрь", "Ноябрь", "Декабрь"]

def daysInMonths : List Int := [31, 28, 31, 30, 31, 30, 31, 31, 30, 31, 30, 31]

/-- `array[i]`, which traps out of range. -/
def arrayAt {α : Type} (array : List α) (i : Int) : Option α :=
  if i < 0 then none else array[i.toNat]?

structure CelendarVC where
  service : Service
  master : Master
  month : Int
  year : Int
  currentMonth : String
  firstWeeakDayMonth : Int
  /-- `isUserInteractionEnabled` of the two buttons -/
  nextMonthButton : Bool
  backMonthButton : Bool
  dateDate : Int
  arrayDateSetviceEntry : List Int
  cellDateDateTime : Option Int
  arrayTimesBlock : List Int
  /-- `isHidden` of the time table and of the activity indicator -/
  tableViewTimeHidden : Bool
  activeIndTimeHidden : Bool

namespace CelendarVC

/-! ## The month -/

/-- The Monday-based weekday of the first of a month, Sunday being `7`. -/
def firstDayMonth (month year : Int) : Option Int := do
  let datedate ← Date.ofText year (month + 1) 1 0
  let firstWeeakDayMonth := Date.weekday datedate
  if firstWeeakDayMonth = 1 then some 7 else some (firstWeeakDayMonth - 1)

/-- `monthFinish` is the number of the current month, `1` to `12`. -/
def checkMonth (monthFinish : Int) (vc : CelendarVC) : CelendarVC :=
  if vc.month + 1 = monthFinish then { vc with backMonthButton := false }
  else if vc.month > monthFinish + 1 then { vc with nextMonthButton := false }
  else { vc with nextMonthButton := true, backMonthButton := true }

/-- `viewDidLoad`, with the properties that `prepare` has set. -/
def viewDidLoad (now monthFinish month year : Int) (service : Service) (master : Master) :
    Option CelendarVC := do
  let currentMonth ← arrayAt arrayMonth month
  let firstWeeakDayMonth ← firstDayMonth month year
  let arrayDateSetviceEntry ← createDataEntry now service.timeService
  some (checkMonth monthFinish
    { service, master, month, year, currentMonth, firstWeeakDayMonth,
      nextMonthButton := true, backMonthButton := true, dateDate := now,
      arrayDateSetviceEntry, cellDateDateTime := none, arrayTimesBlock := [],
      tableViewTimeHidden := true, activeIndTimeHidden := true })

/-- What both month buttons do after they have moved `month` and `year`. -/
def showMonth (monthFinish month year : Int) (vc : CelendarVC) : Option CelendarVC := do
  let firstWeeakDayMonth ← firstDayMonth month year
  let currentMonth ← arrayAt arrayMonth month
  some (checkMonth monthFinish { vc with month, year, firstWeeakDayMonth, currentMonth })

def actionNextMonth (monthFinish : Int) (vc : CelendarVC) : Option CelendarVC :=
  if vc.currentMonth = "Декабрь" then showMonth monthFinish 0 (vc.year + 1) vc
  else showMonth monthFinish (vc.month + 1) vc.year vc

def actionBackMonth (monthFinish : Int) (vc : CelendarVC) : Option CelendarVC :=
  if vc.currentMonth = "Январь" then showMonth monthFinish 11 (vc.year - 1) vc
  else showMonth monthFinish (vc.month - 1) vc.year vc

/-! ## The days -/

def numberOfItemsInSection (vc : CelendarVC) : Option Int :=
  (arrayAt daysInMonths vc.month).map (· + vc.firstWeeakDayMonth - 1)

def dayForCell (vc : CelendarVC) (row : Nat) : Int := row + 2 - vc.firstWeeakDayMonth

/-- Whether `collectionView(cellForItemAt:)` makes a cell that can be tapped: not one of the
hidden cells before the first of the month, and not a day whose 20:00 is past. -/
def cellForItemAt (now : Int) (vc : CelendarVC) (row : Nat) : Bool :=
  if vc.firstWeeakDayMonth - 1 > row then false
  else match Date.ofText vc.year (vc.month + 1) (vc.dayForCell row) 72000 with
    | none => true
    | some cellDate => !decide (cellDate < now)

/-- The query of `getTimesIsGreaterThan`. -/
def getTimesIsGreaterThan (vc : CelendarVC) (timeIsGreater : Int) : Query :=
  let serviceEntryTimes := Query.ofCollection "service_enrty"
  let snapshotDoc := serviceEntryTimes.whereField (.isGreaterThan "dttmEntry" timeIsGreater)
  -- the results of the next two calls are not used
  let _ := snapshotDoc.whereField (.isEqualTo "serviceIdDocoment" vc.service.id)
  let _ := snapshotDoc.whereField (.isEqualTo "idMaster" vc.master.id)
  snapshotDoc

/-- The date of a cell of the grid. -/
def dateOfCell (vc : CelendarVC) (row : Nat) : Option Int :=
  Date.ofText vc.year (vc.month + 1) (vc.dayForCell row) 0

/-- `collectionView(didSelectItemAt:)` and the query it sends. -/
def didSelectItemAt (vc : CelendarVC) (row : Nat) : CelendarVC × Option Query :=
  match vc.dateOfCell row with
  | none => (vc, none)
  | some dateDateF =>
      ({ vc with dateDate := dateDateF, activeIndTimeHidden := false },
        some (vc.getTimesIsGreaterThan dateDateF))

def didDeselectItemAt (vc : CelendarVC) : CelendarVC := { vc with tableViewTimeHidden := true }

/-- The loop over the documents of a response: the times appended, and whether the loop went
through all documents (it returns at the first one without a timestamp). -/
def appendTimes : List Document → List Int × Bool
  | [] => ([], true)
  | document :: documents =>
      match document.data.timestamp? "dttmEntry" with
      | none => ([], false)
      | some timeStump =>
          let rest := appendTimes documents
          (timeStump :: rest.1, rest.2)

/-- The completion handler of `getTimesIsGreaterThan`, and whether it reloads the time table. -/
def receiveTimes (vc : CelendarVC) (documents : List Document) : CelendarVC × Bool :=
  let (times, complete) := appendTimes documents
  let vc := { vc with arrayTimesBlock := vc.arrayTimesBlock ++ times }
  if complete then
    ({ vc with tableViewTimeHidden := false, activeIndTimeHidden := true }, true)
  else (vc, false)

/-! ## The times of a day -/

/-- A row of the time table: whether it can be tapped, the time and the day its labels show
(none for «Нет записи» and for an empty label). -/
structure TimeCell where
  isUserInteractionEnabled : Bool
  textLabel : Option Int
  detailTextLabel : Option Int
  deriving DecidableEq, Repr

/-- `tableView(cellForRowAt:)`: the controller and the row. -/
def cellForRowAt (now : Int) (vc : CelendarVC) (row : Nat) : Option (CelendarVC × TimeCell) := do
  let dateTime ← vc.arrayDateSetviceEntry[row]?
  let time := Date.hourMinute dateTime
  let cellDateTime := Date.time dateTime
  let cellDateDate := Date.day vc.dateDate
  let cellDateDateTime := Date.ofMasks cellDateDate cellDateTime
  let vc := { vc with cellDateDateTime := some cellDateDateTime }
  if cellDateDateTime < now then some (vc, ⟨false, none, none⟩)
  else if vc.arrayTimesBlock.contains cellDateDateTime then
    some (vc, ⟨false, some time, some cellDateDate⟩)
  else some (vc, ⟨true, some time, some cellDateDate⟩)

/-- `tableView(didSelectRowAt:)`, up to the segue. -/
def didSelectRowAt (vc : CelendarVC) (row : Nat) : Option CelendarVC := do
  let dateTime ← vc.arrayDateSetviceEntry[row]?
  let cellDateTime := Date.time dateTime
  let cellDateDate := Date.day vc.dateDate
  some { vc with cellDateDateTime := some (Date.ofMasks cellDateDate cellDateTime) }

/-- The date-time of a row on the selected day. -/
def rowDate (vc : CelendarVC) (row : Nat) : Option Int :=
  vc.arrayDateSetviceEntry[row]?.map
    (fun dateTime => Date.ofMasks (Date.day vc.dateDate) (Date.time dateTime))

/-! ## What the operations do -/

theorem checkMonth_frame (monthFinish : Int) (vc : CelendarVC) :
    ∃ next back, checkMonth monthFinish vc
      = { vc with nextMonthButton := next, backMonthButton := back } := by
  unfold checkMonth
  split_ifs
  · exact ⟨vc.nextMonthButton, false, rfl⟩
  · exact ⟨false, vc.backMonthButton, rfl⟩
  · exact ⟨true, true, rfl⟩

/-- A month change moves the month and nothing else: the selected date, the blocked times and the
time table stay. -/
theorem showMonth_spec {monthFinish month year : Int} {vc vc' : CelendarVC}
    (h : showMonth monthFinish month year vc = some vc') :
    ∃ currentMonth firstWeeakDayMonth next back,
      vc' = { vc with
        month := month, year := year, currentMonth := currentMonth,
        firstWeeakDayMonth := firstWeeakDayMonth,
        nextMonthButton := next, backMonthButton := back } := by
  simp only [showMonth, Option.bind_eq_bind] at h
  obtain ⟨firstWeeakDayMonth, -, h⟩ := Option.bind_eq_some_iff.mp h
  obtain ⟨currentMonth, -, h⟩ := Option.bind_eq_some_iff.mp h
  obtain ⟨next, back, hcheck⟩ := checkMonth_frame monthFinish
    { vc with month, year, firstWeeakDayMonth, currentMonth }
  refine ⟨currentMonth, firstWeeakDayMonth, next, back, ?_⟩
  rw [← Option.some.inj h, hcheck]

theorem month_spec {monthFinish : Int} {vc vc' : CelendarVC}
    (h : actionNextMonth monthFinish vc = some vc' ∨ actionBackMonth monthFinish vc = some vc') :
    ∃ month year currentMonth firstWeeakDayMonth next back,
      vc' = { vc with
        month := month, year := year, currentMonth := currentMonth,
        firstWeeakDayMonth := firstWeeakDayMonth,
        nextMonthButton := next, backMonthButton := back } := by
  unfold actionNextMonth actionBackMonth at h
  rcases h with h | h <;> split_ifs at h <;> exact ⟨_, _, showMonth_spec h⟩

theorem viewDidLoad_spec {now monthFinish month year : Int} {service : Service} {master : Master}
    {vc : CelendarVC} (h : viewDidLoad now monthFinish month year service master = some vc) :
    vc.service = service ∧ vc.master = master ∧ vc.arrayTimesBlock = [] ∧
      vc.tableViewTimeHidden = true ∧
      createDataEntry now service.timeService = some vc.arrayDateSetviceEntry := by
  simp only [viewDidLoad, Option.bind_eq_bind] at h
  obtain ⟨currentMonth, -, h⟩ := Option.bind_eq_some_iff.mp h
  obtain ⟨firstWeeakDayMonth, -, h⟩ := Option.bind_eq_some_iff.mp h
  obtain ⟨slots, hslots, h⟩ := Option.bind_eq_some_iff.mp h
  obtain ⟨next, back, hcheck⟩ := checkMonth_frame monthFinish
    { service, master, month, year, currentMonth, firstWeeakDayMonth,
      nextMonthButton := true, backMonthButton := true, dateDate := now,
      arrayDateSetviceEntry := slots, cellDateDateTime := none, arrayTimesBlock := [],
      tableViewTimeHidden := true, activeIndTimeHidden := true }
  rw [hcheck] at h
  obtain rfl := Option.some.inj h
  exact ⟨rfl, rfl, rfl, rfl, hslots⟩

/-- When every document carries a timestamp, the loop appends all times. -/
theorem appendTimes_of_timestamps {documents : List Document}
    (h : ∀ d ∈ documents, ∃ t, d.data.timestamp? "dttmEntry" = some t) :
    appendTimes documents = (documents.filterMap (fun d => d.data.timestamp? "dttmEntry"), true) := by
  induction documents with
  | nil => rfl
  | cons d ds ih =>
      obtain ⟨t, ht⟩ := h d (by simp)
      rw [appendTimes, ht, ih (fun e he => h e (by simp [he])), List.filterMap_cons, ht]

/-- A selected day becomes `dateDate` and its query is sent. -/
theorem didSelectItemAt_of_some {vc : CelendarVC} {row : Nat} {d : Int}
    (h : vc.dateOfCell row = some d) :
    vc.didSelectItemAt row
      = ({ vc with dateDate := d, activeIndTimeHidden := false },
          some (vc.getTimesIsGreaterThan d)) := by
  simp [didSelectItemAt, h]

theorem didSelectItemAt_of_none {vc : CelendarVC} {row : Nat} (h : vc.dateOfCell row = none) :
    vc.didSelectItemAt row = (vc, none) := by
  simp [didSelectItemAt, h]

theorem receiveTimes_eq (vc : CelendarVC) (documents : List Document) :
    vc.receiveTimes documents =
      if (appendTimes documents).2 then
        ({ vc with
          arrayTimesBlock := vc.arrayTimesBlock ++ (appendTimes documents).1
          tableViewTimeHidden := false, activeIndTimeHidden := true }, true)
      else ({ vc with arrayTimesBlock := vc.arrayTimesBlock ++ (appendTimes documents).1 }, false) :=
  rfl

/-- The documents that the query returns: those with a time after the given one, for every
service and every master. -/
theorem mem_getDocuments_iff {vc : CelendarVC} {date : Int} {content : List Document}
    {d : Document} :
    d ∈ (vc.getTimesIsGreaterThan date).getDocuments content ↔
      d ∈ content ∧ ∃ t, d.data.timestamp? "dttmEntry" = some t ∧ date < t := by
  simp only [getTimesIsGreaterThan, Query.mem_getDocuments, Query.whereField, Query.ofCollection,
    List.nil_append, List.all_cons, List.all_nil, Bool.and_true, FieldFilter.holds,
    and_congr_right_iff]
  intro _
  cases d.data.timestamp? "dttmEntry" with
  | none => simp
  | some t => simp

/-- **A row that can be tapped** is one whose date-time is neither past nor blocked; its labels
show that date-time. -/
theorem cellForRowAt_spec {now : Int} {vc vc' : CelendarVC} {row : Nat} {cell : TimeCell}
    (h : cellForRowAt now vc row = some (vc', cell)) :
    ∃ dateTime t, vc.arrayDateSetviceEntry[row]? = some dateTime ∧
      t = Date.ofMasks (Date.day vc.dateDate) (Date.time dateTime) ∧
      vc' = { vc with cellDateDateTime := some t } ∧
      (cell.isUserInteractionEnabled = true ↔ ¬ t < now ∧ t ∉ vc.arrayTimesBlock) ∧
      (cell.isUserInteractionEnabled = true →
        cell.textLabel = some (Date.hourMinute dateTime) ∧
        cell.detailTextLabel = some (Date.day vc.dateDate)) := by
  simp only [cellForRowAt, Option.bind_eq_bind] at h
  obtain ⟨dateTime, hrow, h⟩ := Option.bind_eq_some_iff.mp h
  refine ⟨dateTime, Date.ofMasks (Date.day vc.dateDate) (Date.time dateTime), hrow, rfl, ?_⟩
  -- a row of the past, a blocked one, and one that can be tapped
  split_ifs at h with hpast hblock
  all_goals
    simp only [Option.some.injEq, Prod.mk.injEq] at h
    obtain ⟨rfl, rfl⟩ := h
  · simp [hpast]
  · have hmem : Date.ofMasks (Date.day vc.dateDate) (Date.time dateTime) ∈ vc.arrayTimesBlock := by
      simpa using hblock
    simp [hmem]
  · have hnot : Date.ofMasks (Date.day vc.dateDate) (Date.time dateTime) ∉ vc.arrayTimesBlock := by
      simpa using hblock
    simp [hpast, hnot]

theorem didSelectRowAt_spec {vc vc' : CelendarVC} {row : Nat}
    (h : didSelectRowAt vc row = some vc') :
    ∃ t, vc.rowDate row = some t ∧ vc' = { vc with cellDateDateTime := some t } := by
  simp only [didSelectRowAt, Option.bind_eq_bind] at h
  obtain ⟨dateTime, hrow, h⟩ := Option.bind_eq_some_iff.mp h
  exact ⟨_, by rw [rowDate, hrow]; rfl, (Option.some.inj h).symm⟩

end CelendarVC

end Flamingo
