import Flamingo.Foundation.Gregorian
import Flamingo.Foundation.Text

set_option autoImplicit false

/-! # The grid of start times of a service

`FirebaseManager.createDataEntry`: the start times that a service can be booked at, from the
opening of the salon at 10:00 in steps of the service's duration as long as they are before
20:00. The function traps on a text without a `:` and never returns when the duration is not
positive; both are the result `none` here.

The two hours are read from a text with dots by a formatter whose mask has dashes. What it makes of
that is not in the source. `createDataEntry` is the function for a formatter that reads today's
hours (`createDataEntryReading_eq`); one that reads nothing leaves no start times.
-/

namespace Flamingo

/-- Today at a full hour. -/
def hourOfToday (today hour : Int) : Option Int :=
  some (Date.ofMasks (Date.day today) (hour * 3600))

/-- `dateFromStringFirebase`, where `date` is what a formatter with a mask reads of a text. -/
def dateFromStringFirebase (date : String → String → Option Int) (dateStr : String) : Option Int :=
  date "MM-dd-yyyy HH:mm" dateStr

/-- The text of today's date and a time. -/
def dateStrOfToday (today : Int) (time : String) : String :=
  toString (Date.month (Date.day today)) ++ "." ++ toString (Date.dayOfMonth (Date.day today)) ++
    "." ++ toString (Date.yearOf (Date.day today)) ++ " " ++ time

/-- The result of reading `timeService`. -/
inductive TimeInterval
  /-- `timeInterval[1]` is out of range or the sum overflows -/
  | trap
  /-- a component is not an `Int`: the function returns `[]` -/
  | unreadable
  | minutes (n : Int)
  deriving DecidableEq, Repr

/-- `(hour * 60) + minute` of the first two components of `timeService`. -/
def timeIntervalMinute (timeService : String) : TimeInterval :=
  match Text.components timeService ':' with
  | [] => .trap
  | h :: rest =>
      match Text.int? h with
      | none => .unreadable
      | some hour =>
          match rest with
          | [] => .trap
          | m :: _ =>
              match Text.int? m with
              | none => .unreadable
              | some minute =>
                  if Text.fitsInt (hour * 60) && Text.fitsInt (hour * 60 + minute) then
                    .minutes (hour * 60 + minute)
                  else .trap

/-- The `while` loop with a bound on its iterations; `none` if they do not suffice. -/
def appendEntries (stopDate timeIntervalMinute : Int) : Nat → Int → Option (List Int)
  | 0, _ => none
  | fuel + 1, startDate =>
      if startDate < stopDate then
        (appendEntries stopDate timeIntervalMinute fuel (startDate + 60 * timeIntervalMinute)).map
          (startDate :: ·)
      else some []

/-- The iterations that suffice for every duration of at least a minute, which is every
positive one: a working day has 600 minutes (`appendEntries_diverges`). -/
def loopBound : Nat := 601

def createDataEntry (today : Int) (timeService : String) : Option (List Int) :=
  match timeIntervalMinute timeService with
  | .trap => none
  | .unreadable => some []
  | .minutes T =>
      match hourOfToday today 20, hourOfToday today 10 with
      | some stopDate, some startDate => appendEntries stopDate T loopBound startDate
      | _, _ => some []

/-- `createDataEntry` with a formatter. -/
def createDataEntryReading (date : String → String → Option Int) (today : Int)
    (timeService : String) : Option (List Int) :=
  match timeIntervalMinute timeService with
  | .trap => none
  | .unreadable => some []
  | .minutes T =>
      match dateFromStringFirebase date (dateStrOfToday today "20:00"),
        dateFromStringFirebase date (dateStrOfToday today "10:00") with
      | some stopDate, some startDate => appendEntries stopDate T loopBound startDate
      | _, _ => some []

/-! ## The hours of the day -/

/-- The formatter reads the dates that the texts of today's hours stand for. -/
structure ReadsToday (date : String → String → Option Int) (today : Int) : Prop where
  opening : dateFromStringFirebase date (dateStrOfToday today "10:00") = hourOfToday today 10
  closing : dateFromStringFirebase date (dateStrOfToday today "20:00") = hourOfToday today 20

theorem createDataEntryReading_eq {date : String → String → Option Int} {today : Int}
    (h : ReadsToday date today) (timeService : String) :
    createDataEntryReading date today timeService = createDataEntry today timeService := by
  rw [createDataEntryReading, createDataEntry, h.opening, h.closing]

/-- No hours, no start times. -/
theorem createDataEntryReading_of_nil {date : String → String → Option Int} {today : Int}
    (h : dateFromStringFirebase date (dateStrOfToday today "20:00") = none) {timeService : String}
    {slots : List Int} (hslots : createDataEntryReading date today timeService = some slots) :
    slots = [] := by
  rw [createDataEntryReading, h] at hslots
  cases hread : timeIntervalMinute timeService with
  | trap => simp [hread] at hslots
  | unreadable => simpa [hread] using hslots.symm
  | minutes T => simpa [hread] using hslots.symm

/-! ## The loop -/

/-- When `startDate + n * T` is the first date of the grid that is not before `stopDate`, the loop
lists the `n` dates before it. -/
theorem appendEntries_eq (stopDate T : Int) :
    ∀ (n fuel : Nat) (startDate : Int), n < fuel →
      stopDate ≤ startDate + n * (60 * T) →
      (∀ k : Nat, k < n → startDate + k * (60 * T) < stopDate) →
      appendEntries stopDate T fuel startDate
        = some ((List.range n).map (fun k : Nat => startDate + k * (60 * T))) := by
  intro n
  induction n with
  | zero =>
      intro fuel startDate hfuel hstop _
      obtain ⟨fuel, rfl⟩ : ∃ f, fuel = f + 1 := ⟨fuel - 1, by omega⟩
      have hnot : ¬ startDate < stopDate := by simpa using hstop
      simp [appendEntries, hnot]
  | succ n ih =>
      intro fuel startDate hfuel hstop hlt
      obtain ⟨fuel, rfl⟩ : ∃ f, fuel = f + 1 := ⟨fuel - 1, by omega⟩
      have hfirst : startDate < stopDate := by simpa using hlt 0 (by omega)
      have hrest : appendEntries stopDate T fuel (startDate + 60 * T)
          = some ((List.range n).map (fun k : Nat => startDate + 60 * T + k * (60 * T))) := by
        refine ih fuel (startDate + 60 * T) (by omega) ?_ ?_
        · calc stopDate
              ≤ startDate + (n + 1 : Nat) * (60 * T) := hstop
            _ = startDate + 60 * T + n * (60 * T) := by
                push_cast
                ring
        · intro k hk
          calc startDate + 60 * T + k * (60 * T)
              = startDate + (k + 1 : Nat) * (60 * T) := by
                push_cast
                ring
            _ < stopDate := hlt (k + 1) (by omega)
      rw [appendEntries, if_pos hfirst, hrest, Option.map_some, List.range_succ_eq_map,
        List.map_cons, List.map_map]
      congr 2
      · simp
      · refine List.map_congr_left (fun k _ => ?_)
        simp only [Function.comp, Nat.succ_eq_add_one]
        push_cast
        ring

/-- With a duration that is not positive no number of iterations suffices. -/
theorem appendEntries_diverges (stopDate T : Int) (hT : T ≤ 0) :
    ∀ (fuel : Nat) (startDate : Int), startDate < stopDate →
      appendEntries stopDate T fuel startDate = none := by
  intro fuel
  induction fuel with
  | zero =>
      intro startDate _
      rfl
  | succ fuel ih =>
      intro startDate h
      rw [appendEntries, if_pos h, ih _ (by omega)]
      rfl

/-! ## The grid -/

/-- The number of start times: `600 / T`, rounded up. -/
def slotCount (T : Int) : Nat := ((600 + T - 1) / T).toNat

theorem lt_slotCount_iff {T : Int} (hT : 0 < T) (k : Nat) : k < slotCount T ↔ k * T < 600 := by
  have hnonneg : 0 ≤ (600 + T - 1) / T := Int.ediv_nonneg (by omega) (by omega)
  have hdiv : ((k : Int) < (600 + T - 1) / T) ↔ ((k : Int) + 1) * T ≤ 600 + T - 1 :=
    Int.le_ediv_iff_mul_le hT
  have hexp : ((k : Int) + 1) * T = k * T + T := by ring
  unfold slotCount
  rw [hexp] at hdiv
  omega

/-- The `k`-th start time on the day of `today`. -/
def slot (today T : Int) (k : Nat) : Int := Date.ofMasks (Date.day today) (36000 + k * (60 * T))

theorem slot_time {today T : Int} (hT : 0 < T) {k : Nat} (hk : k < slotCount T) :
    Date.time (slot today T k) = 36000 + k * (60 * T) := by
  have hlt : (k : Int) * T < 600 := (lt_slotCount_iff hT k).mp hk
  have hexp : (k : Int) * (60 * T) = 60 * (k * T) := by ring
  have hnonneg : (0 : Int) ≤ k * T := by positivity
  exact Date.time_ofMasks (by omega) (by simp only [Date.secondsOfDay]; omega)

/-- **The slots of a service.** For a positive duration `createDataEntry` returns today's grid
from 10:00 in steps of `T` minutes, as long as it is before 20:00. -/
theorem createDataEntry_eq (today : Int) {timeService : String} {T : Int} (hT : 0 < T)
    (hread : timeIntervalMinute timeService = .minutes T) :
    createDataEntry today timeService = some ((List.range (slotCount T)).map (slot today T)) := by
  have hcount : slotCount T ≤ 600 := by
    by_contra hcon
    have h := (lt_slotCount_iff hT 600).mp (by omega)
    push_cast at h
    omega
  have hend : 600 ≤ (slotCount T : Int) * T := by
    by_contra hcon
    exact Nat.lt_irrefl _ ((lt_slotCount_iff hT (slotCount T)).mpr (by omega))
  simp only [createDataEntry, hread, hourOfToday, Date.ofMasks]
  rw [appendEntries_eq _ T (slotCount T) loopBound _ (by unfold loopBound; omega)]
  · refine congrArg some (List.map_congr_left (fun k _ => ?_))
    simp only [slot, Date.ofMasks]
    omega
  · have : (slotCount T : Int) * (60 * T) = 60 * (slotCount T * T) := by ring
    omega
  · intro k hk
    have hlt := (lt_slotCount_iff hT k).mp hk
    have : (k : Int) * (60 * T) = 60 * (k * T) := by ring
    omega

/-- Every start time that is listed is a full minute between 10:00 and 20:00 of the day. -/
theorem time_of_mem_createDataEntry {today : Int} {timeService : String} {slots : List Int}
    (h : createDataEntry today timeService = some slots) :
    ∀ d ∈ slots, 36000 ≤ Date.time d ∧ Date.time d < 72000 ∧ Date.time d % 60 = 0 := by
  unfold createDataEntry at h
  cases hread : timeIntervalMinute timeService with
  | trap => simp [hread] at h
  | unreadable =>
      simp only [hread, Option.some.injEq] at h
      subst h
      simp
  | minutes T =>
      by_cases hT : 0 < T
      · have heq := createDataEntry_eq today hT hread
        unfold createDataEntry at heq
        rw [h, Option.some.injEq] at heq
        subst heq
        intro d hd
        obtain ⟨k, hk, rfl⟩ := List.mem_map.mp hd
        have hk' : k < slotCount T := List.mem_range.mp hk
        have hlt := (lt_slotCount_iff hT k).mp hk'
        have hnonneg : (0 : Int) ≤ k * T := by positivity
        have hexp : 36000 + (k : Int) * (60 * T) = 36000 + 60 * (k * T) := by ring
        rw [slot_time hT hk', hexp]
        generalize (k : Int) * T = m at hlt hnonneg
        omega
      · simp only [hread, hourOfToday] at h
        rw [appendEntries_diverges _ T (by omega) loopBound _
          (by simp only [Date.ofMasks]; omega)] at h
        cases h

-- three quarters of an hour: fourteen start times, the last at 19:45
example : (createDataEntry 0 "0:45").map List.length = some 14 := by decide

end Flamingo
