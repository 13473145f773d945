import Flamingo.Lib.Progression
import Flamingo.DBManager.DataEntry

set_option autoImplicit false

/-! # The start times of every duration

`createDataEntry` on an arbitrary text: when it comes back at all, and what it comes back with. The
function indexes the components of the text and multiplies without a check, and its loop ends only
if the duration is positive. For a positive duration the result is the progression of the start
times from 10:00 to 20:00.
-/

namespace Flamingo

/-- `createDataEntry` with any bound on the iterations of its loop. -/
def createDataEntryWithin (fuel : Nat) (today : Int) (timeService : String) : Option (List Int) :=
  match timeIntervalMinute timeService with
  | .trap => none
  | .unreadable => some []
  | .minutes T =>
      match hourOfToday today 20, hourOfToday today 10 with
      | some stopDate, some startDate => appendEntries stopDate T fuel startDate
      | _, _ => some []

/-! ## Reading the text -/

/-- The first two components are `Int`s. -/
def Reads (timeService : String) (hour minute : Int) (rest : List (List Char)) : Prop :=
  ∃ h m, Text.components timeService ':' = h :: m :: rest ∧ Text.int? h = some hour ∧
    Text.int? m = some minute

/-- The hour is an `Int`, and there is no second component. -/
def HourOnly (timeService : String) : Prop :=
  ∃ h hour, Text.components timeService ':' = [h] ∧ Text.int? h = some hour

/-- The first component is no `Int`, or there is a second one that is none. -/
def Unreadable (timeService : String) : Prop :=
  (∃ h rest, Text.components timeService ':' = h :: rest ∧ Text.int? h = none) ∨
    ∃ h m rest, Text.components timeService ':' = h :: m :: rest ∧ Text.int? m = none

/-- The number of minutes is an `Int`, and so is what it is computed from. -/
def Fits (hour minute : Int) : Prop :=
  Text.fitsInt (hour * 60) = true ∧ Text.fitsInt (hour * 60 + minute) = true

/-- A text is one of the three. -/
theorem reading_cases (timeService : String) :
    Unreadable timeService ∨ HourOnly timeService ∨
      ∃ hour minute rest, Reads timeService hour minute rest := by
  unfold Unreadable HourOnly Reads
  have hne : Text.components timeService ':' ≠ [] := List.splitOn_ne_nil _ _
  rcases hlist : Text.components timeService ':' with _ | ⟨h, rest⟩
  · exact absurd hlist hne
  · cases hhour : Text.int? h with
    | none => exact Or.inl (Or.inl ⟨h, rest, rfl, hhour⟩)
    | some hour =>
        cases rest with
        | nil => exact Or.inr (Or.inl ⟨h, hour, rfl, hhour⟩)
        | cons m rest =>
            cases hminute : Text.int? m with
            | none => exact Or.inl (Or.inr ⟨h, m, rest, rfl, hminute⟩)
            | some minute => exact Or.inr (Or.inr ⟨hour, minute, rest, h, m, rfl, hhour, hminute⟩)

theorem timeIntervalMinute_of_unreadable {timeService : String} (h : Unreadable timeService) :
    timeIntervalMinute timeService = .unreadable := by
  unfold timeIntervalMinute
  rcases h with ⟨h, rest, hlist, hhour⟩ | ⟨h, m, rest, hlist, hminute⟩
  · simp only [hlist, hhour]
  · cases hhour : Text.int? h with
    | none => simp only [hlist, hhour]
    | some hour => simp only [hlist, hhour, hminute]

theorem timeIntervalMinute_of_hourOnly {timeService : String} (h : HourOnly timeService) :
    timeIntervalMinute timeService = .trap := by
  obtain ⟨h, hour, hlist, hhour⟩ := h
  simp only [timeIntervalMinute, hlist, hhour]

theorem timeIntervalMinute_of_reads {timeService : String} {hour minute : Int}
    {rest : List (List Char)} (h : Reads timeService hour minute rest) :
    timeIntervalMinute timeService
      = if Text.fitsInt (hour * 60) && Text.fitsInt (hour * 60 + minute) then
          .minutes (hour * 60 + minute)
        else .trap := by
  obtain ⟨h, m, hlist, hhour, hminute⟩ := h
  simp only [timeIntervalMinute, hlist, hhour, hminute]

theorem timeIntervalMinute_of_fits {timeService : String} {hour minute : Int}
    {rest : List (List Char)} (h : Reads timeService hour minute rest) (hfits : Fits hour minute) :
    timeIntervalMinute timeService = .minutes (hour * 60 + minute) := by
  rw [timeIntervalMinute_of_reads h, hfits.1, hfits.2]
  rfl

theorem timeIntervalMinute_of_not_fits {timeService : String} {hour minute : Int}
    {rest : List (List Char)} (h : Reads timeService hour minute rest)
    (hfits : ¬ Fits hour minute) : timeIntervalMinute timeService = .trap := by
  rw [timeIntervalMinute_of_reads h, if_neg]
  rw [Bool.and_eq_true]
  exact hfits

/-! ## When the function comes back -/

/-- The function comes back: it does not trap, and its loop ends. -/
def Returns (today : Int) (timeService : String) : Prop :=
  ∃ fuel entries, createDataEntryWithin fuel today timeService = some entries

theorem createDataEntryWithin_of_unreadable (fuel : Nat) (today : Int) {timeService : String}
    (h : Unreadable timeService) : createDataEntryWithin fuel today timeService = some [] := by
  rw [createDataEntryWithin, timeIntervalMinute_of_unreadable h]

theorem createDataEntryWithin_of_trap (fuel : Nat) (today : Int) {timeService : String}
    (h : timeIntervalMinute timeService = .trap) :
    createDataEntryWithin fuel today timeService = none := by
  rw [createDataEntryWithin, h]

/-- A duration that is not positive keeps the loop going for ever. -/
theorem createDataEntryWithin_of_nonpos (fuel : Nat) (today : Int) {timeService : String} {T : Int}
    (h : timeIntervalMinute timeService = .minutes T) (hT : T ≤ 0) :
    createDataEntryWithin fuel today timeService = none := by
  simp only [createDataEntryWithin, h, hourOfToday]
  apply appendEntries_diverges _ T hT fuel
  simp only [Date.ofMasks]
  omega

/-- Iterations beyond those that suffice make no difference. -/
theorem appendEntries_mono (stopDate T : Int) :
    ∀ (fuel fuel' : Nat) (startDate : Int) (entries : List Int), fuel ≤ fuel' →
      appendEntries stopDate T fuel startDate = some entries →
      appendEntries stopDate T fuel' startDate = some entries := by
  intro fuel
  induction fuel with
  | zero =>
      intro fuel' startDate entries _ h
      cases h
  | succ fuel ih =>
      intro fuel' startDate entries hle h
      obtain ⟨fuel', rfl⟩ : ∃ f, fuel' = f + 1 := ⟨fuel' - 1, by omega⟩
      unfold appendEntries at h ⊢
      split_ifs at h ⊢ with hlt
      · obtain ⟨rest, hrest, rfl⟩ := Option.map_eq_some_iff.mp h
        rw [ih fuel' _ rest (by omega) hrest, Option.map_some]
      · exact h

/-- What any number of iterations leads to is what `createDataEntry` returns. -/
theorem createDataEntry_of_within {fuel : Nat} {today : Int} {timeService : String}
    {entries : List Int} (h : createDataEntryWithin fuel today timeService = some entries) :
    createDataEntry today timeService = some entries := by
  cases hread : timeIntervalMinute timeService with
  | trap =>
      rw [createDataEntryWithin_of_trap fuel today hread] at h
      cases h
  | unreadable =>
      rw [createDataEntryWithin, hread] at h
      rw [createDataEntry, hread]
      exact h
  | minutes T =>
      by_cases hT : 0 < T
      · -- both numbers of iterations are at most the larger one
        have hgrid := createDataEntry_eq today hT hread
        simp only [createDataEntry, createDataEntryWithin, hread, hourOfToday] at h hgrid ⊢
        have hmore := appendEntries_mono _ T fuel (max fuel loopBound) _ entries
          (le_max_left _ _) h
        have hmore' := appendEntries_mono _ T loopBound (max fuel loopBound) _ _
          (le_max_right _ _) hgrid
        rw [hgrid, ← hmore', hmore]
      · rw [createDataEntryWithin_of_nonpos fuel today hread (by omega)] at h
        cases h

theorem returns_iff {today : Int} {timeService : String} :
    Returns today timeService ↔ createDataEntry today timeService ≠ none := by
  constructor
  · rintro ⟨fuel, entries, h⟩
    rw [createDataEntry_of_within h]
    exact Option.some_ne_none _
  · intro h
    obtain ⟨entries, hentries⟩ := Option.ne_none_iff_exists'.mp h
    exact ⟨loopBound, entries, hentries⟩

/-- With two readable components it comes back for a positive duration that does not overflow. -/
theorem returns_of_reads (today : Int) {timeService : String} {hour minute : Int}
    {rest : List (List Char)} (h : Reads timeService hour minute rest) :
    Returns today timeService ↔ Fits hour minute ∧ 0 < hour * 60 + minute := by
  by_cases hfits : Fits hour minute
  · have hread := timeIntervalMinute_of_fits h hfits
    rw [and_iff_right hfits]
    by_cases hpos : 0 < hour * 60 + minute
    · refine iff_of_true ?_ hpos
      rw [returns_iff, createDataEntry_eq today hpos hread]
      exact Option.some_ne_none _
    · refine iff_of_false ?_ hpos
      rintro ⟨fuel, entries, hentries⟩
      rw [createDataEntryWithin_of_nonpos fuel today hread (by omega)] at hentries
      cases hentries
  · refine iff_of_false ?_ (fun hand => hfits hand.1)
    rintro ⟨fuel, entries, hentries⟩
    rw [createDataEntryWithin_of_trap fuel today (timeIntervalMinute_of_not_fits h hfits)]
      at hentries
    cases hentries

theorem not_returns_of_hourOnly (today : Int) {timeService : String} (h : HourOnly timeService) :
    ¬ Returns today timeService := by
  rintro ⟨fuel, entries, hentries⟩
  rw [createDataEntryWithin_of_trap fuel today (timeIntervalMinute_of_hourOnly h)] at hentries
  cases hentries

/-! ## Every text -/

/-- Two integers separated by a colon that denote a positive duration. -/
def DenotesDuration (timeService : String) : Prop :=
  ∃ hour minute, Reads timeService hour minute [] ∧ 0 < 60 * hour + minute

/-- The function comes back, and with nothing if the text denotes no duration. -/
def TotalOn (today : Int) (timeService : String) : Prop :=
  Returns today timeService ∧
    (¬ DenotesDuration timeService → ∀ fuel entries,
      createDataEntryWithin fuel today timeService = some entries → entries = [])

/-- A component that is no `Int` comes before everything else that could go wrong, or the text is
two `Int`s whose duration is positive and does not overflow. -/
def Accepted (timeService : String) : Prop :=
  Unreadable timeService ∨
    ∃ hour minute, Reads timeService hour minute [] ∧ Fits hour minute ∧ 0 < hour * 60 + minute

theorem not_unreadable_of_reads {timeService : String} {hour minute : Int}
    {rest : List (List Char)} (h : Reads timeService hour minute rest) :
    ¬ Unreadable timeService := by
  intro hnot
  have hread := timeIntervalMinute_of_unreadable hnot
  rw [timeIntervalMinute_of_reads h] at hread
  split_ifs at hread

theorem not_unreadable_of_hourOnly {timeService : String} (h : HourOnly timeService) :
    ¬ Unreadable timeService := by
  intro hnot
  have htrap := timeIntervalMinute_of_hourOnly h
  rw [timeIntervalMinute_of_unreadable hnot] at htrap
  cases htrap

theorem not_reads_of_hourOnly {timeService : String} {hour minute : Int} {rest : List (List Char)}
    (h : HourOnly timeService) : ¬ Reads timeService hour minute rest := by
  rintro ⟨x, y, hlist, -, -⟩
  obtain ⟨x', hour', hlist', -⟩ := h
  rw [hlist, List.cons.injEq] at hlist'
  exact List.cons_ne_nil y rest hlist'.2

theorem reads_unique {timeService : String} {hour minute hour' minute' : Int}
    {rest rest' : List (List Char)} (h : Reads timeService hour minute rest)
    (h' : Reads timeService hour' minute' rest') :
    hour = hour' ∧ minute = minute' ∧ rest = rest' := by
  obtain ⟨x, y, hlist, hhour, hminute⟩ := h
  obtain ⟨x', y', hlist', hhour', hminute'⟩ := h'
  rw [hlist, List.cons.injEq, List.cons.injEq] at hlist'
  obtain ⟨rfl, rfl, rfl⟩ := hlist'
  exact ⟨Option.some.inj (hhour.symm.trans hhour'), Option.some.inj (hminute.symm.trans hminute'),
    rfl⟩

/-- There is a start time for every duration: 10:00 is before 20:00. -/
theorem createDataEntry_ne_nil (today : Int) {timeService : String} {T : Int} (hT : 0 < T)
    (hread : timeIntervalMinute timeService = .minutes T) :
    createDataEntry today timeService ≠ some [] := by
  rw [createDataEntry_eq today hT hread, Ne, Option.some.injEq, List.map_eq_nil_iff,
    List.range_eq_nil]
  have hfirst : 0 < slotCount T := (lt_slotCount_iff hT 0).mpr (by simp)
  omega

/-- Nothing is returned only for an unreadable text. -/
theorem createDataEntry_eq_nil_iff (today : Int) (timeService : String) :
    createDataEntry today timeService = some [] ↔ Unreadable timeService := by
  rcases reading_cases timeService with hnot | honly | ⟨hour, minute, rest, hreads⟩
  · refine iff_of_true ?_ hnot
    rw [createDataEntry, timeIntervalMinute_of_unreadable hnot]
  · refine iff_of_false ?_ (not_unreadable_of_hourOnly honly)
    intro h
    exact not_returns_of_hourOnly today honly (returns_iff.mpr (h ▸ Option.some_ne_none _))
  · refine iff_of_false ?_ (not_unreadable_of_reads hreads)
    intro h
    obtain ⟨hfits, hpos⟩ :=
      (returns_of_reads today hreads).mp (returns_iff.mpr (h ▸ Option.some_ne_none _))
    exact createDataEntry_ne_nil today hpos (timeIntervalMinute_of_fits hreads hfits) h

/-- The function comes back: the text is unreadable, or the duration is positive and does not
overflow, whatever comes after it. -/
def Bookable (timeService : String) : Prop :=
  Unreadable timeService ∨
    ∃ hour minute rest, Reads timeService hour minute rest ∧ Fits hour minute ∧
      0 < hour * 60 + minute

theorem returns_of_unreadable (today : Int) {timeService : String} (h : Unreadable timeService) :
    Returns today timeService := ⟨0, [], createDataEntryWithin_of_unreadable 0 today h⟩

theorem returns_iff_bookable (today : Int) (timeService : String) :
    Returns today timeService ↔ Bookable timeService := by
  constructor
  · intro hreturns
    rcases reading_cases timeService with hnot | honly | ⟨hour, minute, rest, hreads⟩
    · exact Or.inl hnot
    · exact absurd hreturns (not_returns_of_hourOnly today honly)
    · exact Or.inr ⟨hour, minute, rest, hreads, (returns_of_reads today hreads).mp hreturns⟩
  · rintro (hnot | ⟨hour, minute, rest, hreads, hduration⟩)
    · exact returns_of_unreadable today hnot
    · exact (returns_of_reads today hreads).mpr hduration

/-- The texts with two readable components. -/
theorem totalOn_of_reads (today : Int) {timeService : String} {hour minute : Int}
    {rest : List (List Char)} (h : Reads timeService hour minute rest) :
    TotalOn today timeService ↔ rest = [] ∧ Fits hour minute ∧ 0 < hour * 60 + minute := by
  rw [TotalOn, returns_of_reads today h]
  constructor
  · rintro ⟨⟨hfits, hpos⟩, htotal⟩
    refine ⟨?_, hfits, hpos⟩
    by_contra hrest
    -- more than two components denote no duration, but the list is not empty
    have hnot : ¬ DenotesDuration timeService := by
      rintro ⟨hour', minute', hreads, -⟩
      exact hrest (reads_unique h hreads).2.2
    obtain ⟨fuel, entries, hentries⟩ := (returns_of_reads today h).mpr ⟨hfits, hpos⟩
    have hnil := htotal hnot fuel entries hentries
    rw [hnil] at hentries
    exact createDataEntry_ne_nil today hpos (timeIntervalMinute_of_fits h hfits)
      (createDataEntry_of_within hentries)
  · rintro ⟨rfl, hfits, hpos⟩
    refine ⟨⟨hfits, hpos⟩, fun hnot => absurd ⟨hour, minute, h, ?_⟩ hnot⟩
    omega

/-- **The texts on which the function is total**: it comes back, and with nothing for a text that
denotes no duration. -/
theorem totalOn_iff_accepted (today : Int) (timeService : String) :
    TotalOn today timeService ↔ Accepted timeService := by
  rcases reading_cases timeService with hnot | honly | ⟨hour, minute, rest, hreads⟩
  · refine iff_of_true ⟨returns_of_unreadable today hnot, ?_⟩ (Or.inl hnot)
    intro _ fuel entries hentries
    rw [createDataEntryWithin_of_unreadable fuel today hnot] at hentries
    exact (Option.some.inj hentries).symm
  · refine iff_of_false (fun htotal => not_returns_of_hourOnly today honly htotal.1) ?_
    rintro (hnot | ⟨hour, minute, hreads, -⟩)
    · exact not_unreadable_of_hourOnly honly hnot
    · exact not_reads_of_hourOnly honly hreads
  · rw [totalOn_of_reads today hreads, Accepted, or_iff_right (not_unreadable_of_reads hreads)]
    constructor
    · rintro ⟨rfl, hfits, hpos⟩
      exact ⟨hour, minute, hreads, hfits, hpos⟩
    · rintro ⟨hour', minute', hreads', hfits, hpos⟩
      obtain ⟨rfl, rfl, rfl⟩ := reads_unique hreads hreads'
      exact ⟨rfl, hfits, hpos⟩

/-- **The endless loop.** The picker of the editor offers "0:00". -/
theorem not_totalOn : ¬ ∀ (today : Int) (timeService : String), TotalOn today timeService := by
  intro hall
  obtain ⟨⟨fuel, entries, hentries⟩, -⟩ := hall 0 "0:00"
  have hread : timeIntervalMinute "0:00" = .minutes 0 := by decide
  rw [createDataEntryWithin_of_nonpos fuel 0 hread (le_refl 0)] at hentries
  cases hentries

/-! ## Every positive duration -/

/-- Today's 10:00 and 20:00. -/
def opening (today : Int) : Int := Date.ofMasks (Date.day today) 36000

def closing (today : Int) : Int := Date.ofMasks (Date.day today) 72000

theorem map_slot_eq_upTo (today T : Int) (n : Nat) :
    (List.range n).map (slot today T) = Progression.upTo (opening today) (60 * T) n := by
  refine List.map_congr_left (fun k _ => ?_)
  simp only [slot, opening, Date.ofMasks, nsmul_eq_mul]
  omega

/-- 600 minutes, rounded up to whole slots. -/
theorem slotCount_eq_ceil {T : Int} (hT : 0 < T) : (slotCount T : Int) = ⌈(600 : ℚ) / T⌉ := by
  have hpos : (0 : ℚ) < T := by exact_mod_cast hT
  have hend : 600 ≤ (slotCount T : Int) * T := by
    by_contra hcon
    exact Nat.lt_irrefl _ ((lt_slotCount_iff hT (slotCount T)).mpr (by omega))
  rw [eq_comm, Int.ceil_eq_iff]
  constructor
  · rw [lt_div_iff₀ hpos]
    -- the last slot begins before 20:00
    obtain ⟨k, hk⟩ : ∃ k, slotCount T = k + 1 := by
      refine Nat.exists_eq_succ_of_ne_zero (fun hzero => ?_)
      rw [hzero] at hend
      simp at hend
    have hlast : (k : Int) * T < 600 := (lt_slotCount_iff hT k).mp (by omega)
    rw [hk]
    push_cast
    rw [add_sub_cancel_right]
    exact_mod_cast hlast
  · rw [div_le_iff₀ hpos]
    exact_mod_cast hend

/-- **The start times are exact.** For a positive duration they are the progression from 10:00 in
steps of the duration, as long as it is before 20:00. -/
theorem createDataEntry_exhausts (today : Int) (timeService : String) (hour minute : Int)
    (rest : List (List Char)) (hreads : Reads timeService hour minute rest)
    (hfits : Fits hour minute) (hpos : 0 < 60 * hour + minute) :
    ∃ slots, createDataEntry today timeService = some slots ∧
      slots = Progression.upTo (opening today) (60 * (60 * hour + minute)) slots.length ∧
      (slots.length : Int) = ⌈(600 : ℚ) / ((60 * hour + minute : Int) : ℚ)⌉ ∧
      Progression.Exhausts slots (opening today) (60 * (60 * hour + minute)) (closing today) := by
  have hT : hour * 60 + minute = 60 * hour + minute := by ring
  have hread := timeIntervalMinute_of_fits hreads hfits
  rw [hT] at hread
  generalize 60 * hour + minute = T at hread hpos
  refine ⟨_, createDataEntry_eq today hpos hread, ?_⟩
  rw [map_slot_eq_upTo, Progression.length_upTo]
  refine ⟨rfl, slotCount_eq_ceil hpos, Progression.exhausts_upTo (by omega) ?_⟩
  intro k
  rw [lt_slotCount_iff hpos, opening, closing, Date.ofMasks, Date.ofMasks, nsmul_eq_mul]
  constructor
  · intro h
    calc Date.day today * Date.secondsOfDay + 36000 + k * (60 * T)
        = Date.day today * Date.secondsOfDay + 36000 + 60 * (k * T) := by ring
      _ < Date.day today * Date.secondsOfDay + 72000 := by omega
  · intro h
    have hexp : (k : Int) * (60 * T) = 60 * (k * T) := by ring
    omega

/-- Three quarters of an hour. -/
theorem createDataEntry_exhausts_quarters : ∃ slots, createDataEntry 0 "0:45" = some slots ∧
    Progression.Exhausts slots 36000 2700 72000 := by
  have hreads : Reads "0:45" 0 45 [] := ⟨['0'], ['4', '5'], by decide, by decide, by decide⟩
  obtain ⟨slots, hslots, -, -, hexhausts⟩ :=
    createDataEntry_exhausts 0 "0:45" 0 45 [] hreads ⟨by decide, by decide⟩ (by decide)
  exact ⟨slots, hslots, hexhausts⟩

end Flamingo
