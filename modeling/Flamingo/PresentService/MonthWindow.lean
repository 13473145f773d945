import Flamingo.Lib.Machine
import Flamingo.PresentService.MonthGrid

set_option autoImplicit false

/-! # The months that can be reached

The client opens the calendar, moves from month to month with the enabled buttons, closes it and
opens it again; the globals `month` and `year` outlive the screen. `checkMonth` compares the index
of the displayed month with the current one and does not look at the year, so the window of three
months is kept only if it lies within one year.
-/

namespace Flamingo

/-- The globals of `Model.swift`, and the calendar if it is open. -/
structure MonthSession where
  month : Int
  year : Int
  screen : Option CelendarVC

inductive MonthEvent
  | openScreen (now : Int) (service : Service) (master : Master)
  | closeScreen
  | nextMonth
  | backMonth

namespace MonthSession

/-- A press of a button that is enabled; the action writes the globals. -/
def press (s : MonthSession) (enabled : CelendarVC → Bool)
    (action : CelendarVC → Option CelendarVC) : Option MonthSession := do
  let vc ← s.screen
  if enabled vc then
    let vc ← action vc
    some ⟨vc.month, vc.year, some vc⟩
  else none

/-- `cm` is the index of the current month, `0` to `11`. -/
def step (cm : Int) (s : MonthSession) : MonthEvent → Option MonthSession
  | .openScreen now service master =>
      match s.screen with
      | some _ => none
      | none => (CelendarVC.viewDidLoad now (cm + 1) s.month s.year service master).map
          (fun vc => { s with screen := some vc })
  | .closeScreen => s.screen.map (fun _ => { s with screen := none })
  | .nextMonth => s.press (·.nextMonthButton) (CelendarVC.actionNextMonth (cm + 1))
  | .backMonth => s.press (·.backMonthButton) (CelendarVC.actionBackMonth (cm + 1))

/-- How many months the displayed month is ahead of the current one. -/
def ahead (cm cy : Int) (s : MonthSession) : Int := 12 * (s.year - cy) + (s.month - cm)

/-- The displayed month is in the window, and the buttons are enabled if they stay in it. -/
structure InWindow (cm cy : Int) (s : MonthSession) : Prop where
  index : 0 ≤ s.month ∧ s.month ≤ 11
  window : 0 ≤ s.ahead cm cy ∧ s.ahead cm cy ≤ 3
  back : ∀ vc ∈ s.screen, vc.backMonthButton = true ↔ 0 < s.ahead cm cy
  next : ∀ vc ∈ s.screen, vc.nextMonthButton = true ↔ s.ahead cm cy < 3

end MonthSession

/-- The calendar in the month `cm` of the year `cy`, from the start of the app on. -/
def months (cm cy : Int) : EventMachine MonthSession MonthEvent where
  init s := s = ⟨cm, cy, none⟩
  step := MonthSession.step cm

/-! ## What the buttons do -/

namespace CelendarVC

/-- The name that is shown is that of the month. -/
def Named (vc : CelendarVC) : Prop := arrayAt arrayMonth vc.month = some vc.currentMonth

theorem arrayAt_arrayMonth_isSome {month : Int} (h0 : 0 ≤ month) (h11 : month ≤ 11) :
    ∃ name, arrayAt arrayMonth month = some name := by
  interval_cases month <;> exact ⟨_, rfl⟩

/-- The names tell the months apart. -/
theorem arrayAt_arrayMonth_inj {month month' : Int} {name : String}
    (h : arrayAt arrayMonth month = some name) (h' : arrayAt arrayMonth month' = some name) :
    month = month' := by
  unfold arrayAt at h h'
  split_ifs at h h' with hneg hneg'
  have hnodup : arrayMonth.Nodup := by decide
  obtain ⟨hlt, hget⟩ := List.getElem?_eq_some_iff.mp h
  obtain ⟨hlt', hget'⟩ := List.getElem?_eq_some_iff.mp h'
  have hindex := (List.Nodup.getElem_inj_iff hnodup).mp (hget.trans hget'.symm)
  omega

/-- A screen shows the name of a month exactly if it shows the month. -/
theorem currentMonth_eq_iff {vc : CelendarVC} (h : vc.Named) {month : Int} {name : String}
    (hname : arrayAt arrayMonth month = some name) : vc.currentMonth = name ↔ vc.month = month := by
  constructor
  · intro hcurrent
    rw [Named, hcurrent] at h
    exact arrayAt_arrayMonth_inj h hname
  · intro hmonth
    rw [Named, hmonth, hname] at h
    exact (Option.some.inj h).symm

/-- What `checkMonth` makes of the two buttons. -/
theorem checkMonth_buttons (monthFinish : Int) (vc : CelendarVC) :
    (checkMonth monthFinish vc).month = vc.month ∧ (checkMonth monthFinish vc).year = vc.year ∧
      (checkMonth monthFinish vc).currentMonth = vc.currentMonth ∧
      (checkMonth monthFinish vc).backMonthButton
        = (if vc.month + 1 = monthFinish then false
          else if vc.month > monthFinish + 1 then vc.backMonthButton else true) ∧
      (checkMonth monthFinish vc).nextMonthButton
        = (if vc.month + 1 = monthFinish then vc.nextMonthButton
          else decide (vc.month ≤ monthFinish + 1)) := by
  unfold checkMonth
  split_ifs with hcurrent hfar
  · exact ⟨rfl, rfl, rfl, rfl, rfl⟩
  · exact ⟨rfl, rfl, rfl, rfl, (decide_eq_false (by omega)).symm⟩
  · exact ⟨rfl, rfl, rfl, rfl, (decide_eq_true (by omega)).symm⟩

/-- The screen after `checkMonth` for a month, which found the buttons as `back` and `next`. -/
structure Checked (monthFinish month year : Int) (back next : Bool) (vc : CelendarVC) : Prop where
  month_eq : vc.month = month
  year_eq : vc.year = year
  named : vc.Named
  back_eq : vc.backMonthButton = (if month + 1 = monthFinish then false
    else if month > monthFinish + 1 then back else true)
  next_eq : vc.nextMonthButton = (if month + 1 = monthFinish then next
    else decide (month ≤ monthFinish + 1))

theorem checked_of_viewDidLoad {now monthFinish month year : Int} {service : Service}
    {master : Master} {vc : CelendarVC}
    (h : viewDidLoad now monthFinish month year service master = some vc) :
    vc.Checked monthFinish month year true true := by
  simp only [viewDidLoad, Option.bind_eq_bind] at h
  obtain ⟨currentMonth, hname, h⟩ := Option.bind_eq_some_iff.mp h
  obtain ⟨first, -, h⟩ := Option.bind_eq_some_iff.mp h
  obtain ⟨slots, -, h⟩ := Option.bind_eq_some_iff.mp h
  obtain rfl := Option.some.inj h
  obtain ⟨hmonth, hyear, hcurrent, hback, hnext⟩ := checkMonth_buttons monthFinish
    { service, master, month, year, currentMonth, firstWeeakDayMonth := first,
      nextMonthButton := true, backMonthButton := true, dateDate := now,
      arrayDateSetviceEntry := slots, cellDateDateTime := none, arrayTimesBlock := [],
      tableViewTimeHidden := true, activeIndTimeHidden := true }
  refine ⟨hmonth, hyear, ?_, hback, hnext⟩
  rw [Named, hmonth, hcurrent]
  exact hname

theorem checked_of_showMonth {monthFinish month year : Int} {vc vc' : CelendarVC}
    (h : showMonth monthFinish month year vc = some vc') :
    vc'.Checked monthFinish month year vc.backMonthButton vc.nextMonthButton := by
  simp only [showMonth, Option.bind_eq_bind] at h
  obtain ⟨first, -, h⟩ := Option.bind_eq_some_iff.mp h
  obtain ⟨currentMonth, hname, h⟩ := Option.bind_eq_some_iff.mp h
  obtain rfl := Option.some.inj h
  obtain ⟨hmonth, hyear, hcurrent, hback, hnext⟩ := checkMonth_buttons monthFinish
    { vc with month, year, firstWeeakDayMonth := first, currentMonth }
  refine ⟨hmonth, hyear, ?_, hback, hnext⟩
  rw [Named, hmonth, hcurrent]
  exact hname

theorem showMonth_isSome (monthFinish : Int) {month : Int} (h0 : 0 ≤ month) (h11 : month ≤ 11)
    (year : Int) (vc : CelendarVC) : (showMonth monthFinish month year vc).isSome = true := by
  obtain ⟨first, hfirst⟩ := exists_firstDayMonth h0 h11 year
  obtain ⟨name, hname⟩ := arrayAt_arrayMonth_isSome h0 h11
  simp only [showMonth, hfirst, hname, Option.bind_eq_bind, Option.bind_some, Option.isSome_some]

theorem actionNextMonth_eq (monthFinish : Int) {vc : CelendarVC} (h : vc.Named) :
    vc.actionNextMonth monthFinish
      = if vc.month = 11 then showMonth monthFinish 0 (vc.year + 1) vc
        else showMonth monthFinish (vc.month + 1) vc.year vc := by
  have hname : vc.currentMonth = "Декабрь" ↔ vc.month = 11 := currentMonth_eq_iff h (by decide)
  unfold actionNextMonth
  simp only [hname]

theorem actionBackMonth_eq (monthFinish : Int) {vc : CelendarVC} (h : vc.Named) :
    vc.actionBackMonth monthFinish
      = if vc.month = 0 then showMonth monthFinish 11 (vc.year - 1) vc
        else showMonth monthFinish (vc.month - 1) vc.year vc := by
  have hname : vc.currentMonth = "Январь" ↔ vc.month = 0 := currentMonth_eq_iff h (by decide)
  unfold actionBackMonth
  simp only [hname]

end CelendarVC

namespace MonthSession

variable {cm cy : Int}

/-- What a button does that is enabled. -/
theorem press_eq_some {s s' : MonthSession} {enabled : CelendarVC → Bool}
    {action : CelendarVC → Option CelendarVC} (h : s.press enabled action = some s') :
    ∃ vc vc', s.screen = some vc ∧ enabled vc = true ∧ action vc = some vc' ∧
      s' = ⟨vc'.month, vc'.year, some vc'⟩ := by
  unfold press at h
  rw [Option.bind_eq_bind, Option.bind_eq_some_iff] at h
  obtain ⟨vc, hvc, h⟩ := h
  split_ifs at h with henabled
  obtain ⟨vc', haction, h⟩ := Option.bind_eq_some_iff.mp h
  exact ⟨vc, vc', hvc, henabled, haction, (Option.some.inj h).symm⟩

/-! ## A window within a year -/

/-- The displayed month is one of the four, in the current year. -/
structure SameYear (cm cy : Int) (s : MonthSession) : Prop where
  year : s.year = cy
  lower : cm ≤ s.month
  upper : s.month ≤ cm + 3
  screen : ∀ vc ∈ s.screen, vc.month = s.month ∧ vc.year = s.year ∧ vc.Named ∧
    (vc.backMonthButton = true ↔ cm < s.month) ∧ (vc.nextMonthButton = true ↔ s.month < cm + 3)

/-- A screen that was checked for one of the four months. -/
theorem sameYear_of_checked {back next : Bool} {month : Int} {vc : CelendarVC}
    (h : vc.Checked (cm + 1) month cy back next) (hlower : cm ≤ month) (hupper : month ≤ cm + 3)
    (hback : month = cm + 3 → back = true) (hnext : month = cm → next = true) :
    SameYear cm cy ⟨month, cy, some vc⟩ := by
  refine ⟨rfl, hlower, hupper, ?_⟩
  intro vc' hvc'
  obtain rfl : vc = vc' := Option.mem_some_iff.mp hvc'
  refine ⟨h.month_eq, h.year_eq, h.named, ?_, ?_⟩
  · show vc.backMonthButton = true ↔ cm < month
    rw [h.back_eq]
    by_cases hcurrent : month + 1 = cm + 1
    · rw [if_pos hcurrent]
      exact iff_of_false Bool.false_ne_true (by omega)
    · rw [if_neg hcurrent]
      by_cases hfar : month > cm + 1 + 1
      · rw [if_pos hfar]
        exact iff_of_true (hback (by omega)) (by omega)
      · rw [if_neg hfar]
        exact iff_of_true rfl (by omega)
  · show vc.nextMonthButton = true ↔ month < cm + 3
    rw [h.next_eq]
    by_cases hcurrent : month + 1 = cm + 1
    · rw [if_pos hcurrent]
      exact iff_of_true (hnext (by omega)) (by omega)
    · rw [if_neg hcurrent, decide_eq_true_eq]
      omega

/-- **One step** stays in the window if it lies within one year. -/
theorem sameYear_step (h0 : 0 ≤ cm) (h8 : cm ≤ 8) {s s' : MonthSession} {e : MonthEvent}
    (hi : SameYear cm cy s) (h : s.step cm e = some s') : SameYear cm cy s' := by
  obtain ⟨hyear, hlower, hupper, hscreen⟩ := hi
  cases e with
  | openScreen now service master =>
      simp only [step] at h
      cases hs : s.screen with
      | some vc =>
          rw [hs] at h
          cases h
      | none =>
          rw [hs] at h
          obtain ⟨vc, hload, rfl⟩ := Option.map_eq_some_iff.mp h
          rw [hyear] at hload ⊢
          exact sameYear_of_checked (CelendarVC.checked_of_viewDidLoad hload) hlower hupper
            (fun _ => rfl) (fun _ => rfl)
  | closeScreen =>
      obtain ⟨vc, -, rfl⟩ := Option.map_eq_some_iff.mp h
      exact ⟨hyear, hlower, hupper, fun vc hvc => absurd hvc (Option.not_mem_none _)⟩
  | nextMonth =>
      obtain ⟨vc, vc', hvc, henabled, haction, rfl⟩ := press_eq_some h
      obtain ⟨hmonth, hyear', hnamed, hback, hnext⟩ := hscreen vc hvc
      have hlt := hnext.mp henabled
      -- the next month is at most December
      rw [CelendarVC.actionNextMonth_eq _ hnamed, if_neg (by omega), hmonth, hyear', hyear]
        at haction
      have hchecked := CelendarVC.checked_of_showMonth haction
      rw [hchecked.month_eq, hchecked.year_eq]
      refine sameYear_of_checked hchecked (by omega) (by omega) ?_ (fun hcurrent => by omega)
      intro hlast
      exact hback.mpr (by omega)
  | backMonth =>
      obtain ⟨vc, vc', hvc, henabled, haction, rfl⟩ := press_eq_some h
      obtain ⟨hmonth, hyear', hnamed, hback, hnext⟩ := hscreen vc hvc
      have hlt := hback.mp henabled
      rw [CelendarVC.actionBackMonth_eq _ hnamed, if_neg (by omega), hmonth, hyear', hyear]
        at haction
      have hchecked := CelendarVC.checked_of_showMonth haction
      rw [hchecked.month_eq, hchecked.year_eq]
      refine sameYear_of_checked hchecked (by omega) (by omega) (fun hlast => by omega) ?_
      intro hcurrent
      exact hnext.mpr (by omega)

theorem inWindow_of_sameYear (h0 : 0 ≤ cm) (h8 : cm ≤ 8) {s : MonthSession}
    (hi : SameYear cm cy s) : InWindow cm cy s := by
  obtain ⟨hyear, hlower, hupper, hscreen⟩ := hi
  have hahead : s.ahead cm cy = s.month - cm := by
    rw [ahead, hyear]
    ring
  refine ⟨by omega, by omega, ?_, ?_⟩
  · intro vc hvc
    obtain ⟨-, -, -, hback, -⟩ := hscreen vc hvc
    rw [hback]
    omega
  · intro vc hvc
    obtain ⟨-, -, -, -, hnext⟩ := hscreen vc hvc
    rw [hnext]
    omega

/-! ## A window that goes over the end of the year -/

/-- The calendar is open at a month, and can be moved on. -/
def OpenAt (s : MonthSession) (month year : Int) : Prop :=
  s.month = month ∧ s.year = year ∧ ∃ vc, s.screen = some vc ∧ vc.month = month ∧
    vc.year = year ∧ vc.Named ∧ vc.nextMonthButton = true

theorem openAt_of_checked {month year : Int} {back next : Bool} {vc : CelendarVC}
    (h : vc.Checked (cm + 1) month year back next)
    (hnext : if month = cm then next = true else month ≤ cm + 2) :
    OpenAt ⟨vc.month, vc.year, some vc⟩ month year := by
  refine ⟨h.month_eq, h.year_eq, vc, rfl, h.month_eq, h.year_eq, h.named, ?_⟩
  rw [h.next_eq]
  split_ifs at hnext ⊢ with hcurrent hcurrent' hcurrent'
  · exact hnext
  · omega
  · omega
  · exact decide_eq_true (by omega)

/-- The calendar can be opened at the start of the app. -/
theorem reachable_open (h0 : 0 ≤ cm) (h11 : cm ≤ 11) (cy : Int) :
    ∃ s, (months cm cy).Reachable s ∧ OpenAt s cm cy := by
  obtain ⟨first, hfirst⟩ := CelendarVC.exists_firstDayMonth h0 h11 cy
  obtain ⟨name, hname⟩ := CelendarVC.arrayAt_arrayMonth_isSome h0 h11
  have hload : (CelendarVC.viewDidLoad 0 (cm + 1) cm cy hourService {}).isSome = true := by
    have hslots : (createDataEntry 0 hourService.timeService).isSome = true := by decide
    obtain ⟨slots, hslots⟩ := Option.isSome_iff_exists.mp hslots
    simp only [CelendarVC.viewDidLoad, hfirst, hname, hslots, Option.bind_eq_bind,
      Option.bind_some, Option.isSome_some]
  obtain ⟨vc, hvc⟩ := Option.isSome_iff_exists.mp hload
  have hchecked := CelendarVC.checked_of_viewDidLoad hvc
  refine ⟨⟨cm, cy, some vc⟩, ?_, ?_⟩
  · refine .step (e := .openScreen 0 hourService {}) (.init rfl) trivial ?_
    show ((CelendarVC.viewDidLoad 0 (cm + 1) cm cy hourService {}).map
      (fun vc => (⟨cm, cy, some vc⟩ : MonthSession))) = _
    rw [hvc, Option.map_some]
  · have hopen := openAt_of_checked hchecked (by rw [if_pos rfl])
    rw [hchecked.month_eq, hchecked.year_eq] at hopen
    exact hopen

/-- A press of the next button leads to the next month, where the button stays enabled as long as
the index of the month is not three ahead. -/
theorem reachable_next {s : MonthSession} {month year : Int} (month' year' : Int)
    (h : (months cm cy).Reachable s) (hopen : s.OpenAt month year)
    (hto : if month = 11 then month' = 0 ∧ year' = year + 1 else month' = month + 1 ∧ year' = year)
    (h0 : 0 ≤ month') (h11 : month' ≤ 11) (hnear : month' ≤ cm + 2) (hother : month' ≠ cm) :
    ∃ s', (months cm cy).Reachable s' ∧ s'.OpenAt month' year' := by
  obtain ⟨-, -, vc, hvc, hmonth, hyear, hnamed, hnext⟩ := hopen
  have haction : vc.actionNextMonth (cm + 1)
      = CelendarVC.showMonth (cm + 1) month' year' vc := by
    rw [CelendarVC.actionNextMonth_eq _ hnamed, hmonth, hyear]
    split_ifs at hto ⊢
    · rw [hto.1, hto.2]
    · rw [hto.1, hto.2]
  obtain ⟨vc', hvc'⟩ := Option.isSome_iff_exists.mp
    (CelendarVC.showMonth_isSome (cm + 1) h0 h11 year' vc)
  have hchecked := CelendarVC.checked_of_showMonth hvc'
  refine ⟨⟨vc'.month, vc'.year, some vc'⟩, .step (e := .nextMonth) h trivial ?_,
    openAt_of_checked hchecked ?_⟩
  · show s.press _ _ = _
    simp only [press, hvc, hnext, haction, hvc', Option.bind_eq_bind, Option.bind_some, if_true]
  · rw [if_neg hother]
    exact hnear

/-- Three presses lead over the end of the year, where the next button is still enabled. -/
theorem exists_openAt_ahead (h9 : 9 ≤ cm) (h11 : cm ≤ 11) (cy : Int) :
    ∃ s, (months cm cy).Reachable s ∧ s.OpenAt (cm - 9) (cy + 1) := by
  obtain ⟨s₀, hreach₀, hopen₀⟩ := reachable_open (by omega) h11 cy
  have hcases : cm = 9 ∨ cm = 10 ∨ cm = 11 := by omega
  rcases hcases with rfl | rfl | rfl
  · obtain ⟨s₁, hreach₁, hopen₁⟩ := reachable_next 10 cy hreach₀ hopen₀
      (by simp) (by decide) (by decide) (by decide) (by decide)
    obtain ⟨s₂, hreach₂, hopen₂⟩ := reachable_next 11 cy hreach₁ hopen₁
      (by simp) (by decide) (by decide) (by decide) (by decide)
    exact reachable_next _ _ hreach₂ hopen₂ (by simp) (by decide) (by decide) (by decide) (by decide)
  · obtain ⟨s₁, hreach₁, hopen₁⟩ := reachable_next 11 cy hreach₀ hopen₀
      (by simp) (by decide) (by decide) (by decide) (by decide)
    obtain ⟨s₂, hreach₂, hopen₂⟩ := reachable_next 0 (cy + 1) hreach₁ hopen₁
      (by simp) (by decide) (by decide) (by decide) (by decide)
    exact reachable_next _ _ hreach₂ hopen₂ (by simp) (by decide) (by decide) (by decide) (by decide)
  · obtain ⟨s₁, hreach₁, hopen₁⟩ := reachable_next 0 (cy + 1) hreach₀ hopen₀
      (by simp) (by decide) (by decide) (by decide) (by decide)
    obtain ⟨s₂, hreach₂, hopen₂⟩ := reachable_next 1 (cy + 1) hreach₁ hopen₁
      (by simp) (by decide) (by decide) (by decide) (by decide)
    exact reachable_next _ _ hreach₂ hopen₂ (by simp) (by decide) (by decide) (by decide) (by decide)

/-- From October on a month outside the window can be reached. -/
theorem exists_not_inWindow (h9 : 9 ≤ cm) (h11 : cm ≤ 11) (cy : Int) :
    ∃ s, (months cm cy).Reachable s ∧ ¬ s.InWindow cm cy := by
  obtain ⟨s, hreach, hmonth, hyear, vc, hvc, -, -, -, hnext⟩ := exists_openAt_ahead h9 h11 cy
  refine ⟨s, hreach, ?_⟩
  intro hwindow
  have hahead : s.ahead cm cy = 3 := by
    rw [ahead, hmonth, hyear]
    ring
  have hlt := (hwindow.next vc hvc).mp hnext
  omega

end MonthSession

/-! ## The runs -/

/-- **The window of the calendar** is kept in every run exactly if it lies within one year: the
current month is one of January to September. -/
theorem inWindow_iff (cm cy : Int) (h0 : 0 ≤ cm) (h11 : cm ≤ 11) :
    (∀ s, (months cm cy).Reachable s → s.InWindow cm cy) ↔ cm ≤ 8 := by
  constructor
  · intro hall
    by_contra hlate
    obtain ⟨s, hreach, hnot⟩ := MonthSession.exists_not_inWindow (by omega) h11 cy
    exact hnot (hall s hreach)
  · intro h8 s hreach
    have hinv : MonthSession.SameYear cm cy s := by
      refine hreach.invariant (MonthSession.SameYear cm cy) ?_ ?_
      · rintro s rfl
        exact ⟨rfl, le_refl _, by simp, fun vc hvc => absurd hvc (Option.not_mem_none _)⟩
      · intro s e s' hi _ hs
        exact MonthSession.sameYear_step h0 h8 hi hs
    exact MonthSession.inWindow_of_sameYear h0 h8 hinv

/-- From September 2020 no session leaves the window. -/
theorem inWindow_september : ¬ ∃ s, (months 8 2020).Reachable s ∧ ¬ s.InWindow 8 2020 := by
  rintro ⟨s, hreach, hnot⟩
  have hall := (inWindow_iff 8 2020 (by decide) (by decide)).mpr (le_refl 8)
  exact hnot (hall s hreach)

/-- **Over the end of the year.** In October 2020 the next button is enabled in January 2021. -/
theorem not_inWindow : ¬ ∀ cm cy : Int, 0 ≤ cm → cm ≤ 11 →
    ∀ s, (months cm cy).Reachable s → s.InWindow cm cy := by
  intro hall
  obtain ⟨s, hreach, hnot⟩ :=
    MonthSession.exists_not_inWindow (le_refl 9) (by decide) 2020
  exact hnot (hall 9 2020 (by decide) (by decide) s hreach)

end Flamingo
