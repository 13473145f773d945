import Flamingo.PresentService.TappedRow

set_option autoImplicit false

/-! # A row that can be tapped was free when its day was selected

`arrayTimesBlock` accumulates the times of all responses, and any response shows the time table,
whichever day was asked for. So the rows of the selected day are right as soon as one response
has been handled that covers this day. The day's own query covers it; a query that was sent for
a later day does not, and when its response is the first to arrive after the selection, the
taken rows of the selected day can be tapped until the day's own response arrives.
-/

namespace Flamingo

namespace CalendarState

/-- The date-times of the rows on the selected day. -/
def rowDates (s : CalendarState) : List Int :=
  s.vc.arrayDateSetviceEntry.map
    (fun dateTime => Date.ofMasks (Date.day s.vc.dateDate) (Date.time dateTime))

/-- The visible row `row` can be tapped for the date-time `t` of the selected day. -/
def Offers (s : CalendarState) (row : Nat) (t : Int) : Prop :=
  s.vc.tableViewTimeHidden = false ∧ s.vc.rowDate row = some t ∧
    ∃ r, s.rows row = some r ∧ r.cell.isUserInteractionEnabled = true

/-- No document existed, when the selected day was selected, for a time that is offered. -/
def NeverUnblocks (s : CalendarState) : Prop :=
  ∀ row t, s.Offers row t → ∀ d ∈ s.atSelection, d.dttmEntry ≠ some t

/-- A response contains every document that its query matched when it was issued, and each of its
documents carries a timestamp. -/
def Faithful (s : CalendarState) : CalendarEvent → Prop
  | .response i documents => ∀ p ∈ s.pending[i]?,
      (∀ d ∈ p.query.getDocuments p.issued, d ∈ documents) ∧
      ∀ d ∈ documents, d.dttmEntry.isSome = true
  | _ => True

/-- The query covers the selected day: when it was issued, it matched every document for a time
of this day that existed when the day was selected and that is not blocked yet. -/
def Covers (s : CalendarState) (p : PendingQuery) : Prop :=
  ∀ d ∈ s.atSelection, ∀ t ∈ d.dttmEntry, t ∈ s.rowDates → t ∉ s.vc.arrayTimesBlock →
    d ∈ p.query.getDocuments p.issued

/-- The first response after a selection answers a query that covers the selected day, and a day
is newly selected under a hidden time table only, which without a month change is always so. -/
def AnswersInOrder (s : CalendarState) : CalendarEvent → Prop
  | .tapDay _ _ => s.selectedItem = none → s.vc.tableViewTimeHidden = true
  | .response i _ => s.answered = false → ∀ p ∈ s.pending[i]?, s.Covers p
  | _ => True

instance (s : CalendarState) (e : CalendarEvent) : Decidable (Faithful s e) :=
  match e with
  | .response i documents => inferInstanceAs (Decidable (∀ p ∈ s.pending[i]?,
      (∀ d ∈ p.query.getDocuments p.issued, d ∈ documents) ∧
      ∀ d ∈ documents, d.dttmEntry.isSome = true))
  | .write _ | .nextMonth _ | .backMonth _ | .tapDay _ _ | .responseError _ | .render _ _ =>
      inferInstanceAs (Decidable True)

instance (s : CalendarState) (p : PendingQuery) : Decidable (s.Covers p) :=
  inferInstanceAs (Decidable (∀ d ∈ s.atSelection, ∀ t ∈ d.dttmEntry, t ∈ s.rowDates →
    t ∉ s.vc.arrayTimesBlock → d ∈ p.query.getDocuments p.issued))

instance (s : CalendarState) (e : CalendarEvent) : Decidable (AnswersInOrder s e) :=
  match e with
  | .tapDay _ _ =>
      inferInstanceAs (Decidable (s.selectedItem = none → s.vc.tableViewTimeHidden = true))
  | .response i _ =>
      inferInstanceAs (Decidable (s.answered = false → ∀ p ∈ s.pending[i]?, s.Covers p))
  | .write _ | .nextMonth _ | .backMonth _ | .responseError _ | .render _ _ =>
      inferInstanceAs (Decidable True)

theorem rowDate_mem {s : CalendarState} {row : Nat} {t : Int} (h : s.vc.rowDate row = some t) :
    t ∈ s.rowDates := by
  obtain ⟨dateTime, hrow, rfl⟩ := Option.map_eq_some_iff.mp h
  exact List.mem_map_of_mem (List.mem_of_getElem? hrow)

theorem time_of_dateOfCell {vc : CelendarVC} {row : Nat} {d : Int}
    (h : vc.dateOfCell row = some d) : Date.time d = 0 := by
  unfold CelendarVC.dateOfCell Date.ofText at h
  split_ifs at h
  rw [← Option.some.inj h, Date.time_ofMasks (Int.le_refl 0) (by decide)]

/-! ## The invariant -/

structure FreeInv (s : CalendarState) : Prop where
  /-- the table is visible only after a response -/
  shown : s.vc.tableViewTimeHidden = false → s.answered = true
  /-- after a response the times taken on the selected day are blocked -/
  blocked : s.answered = true → ∀ d ∈ s.atSelection, ∀ t ∈ d.dttmEntry, t ∈ s.rowDates →
    t ∈ s.vc.arrayTimesBlock
  free : s.NeverUnblocks

theorem freeInv_opened {now monthFinish month year : Int} {service : Service} {master : Master}
    {vc : CelendarVC} (content : List Document)
    (h : CelendarVC.viewDidLoad now monthFinish month year service master = some vc) :
    FreeInv (opened vc content) := by
  obtain ⟨-, -, -, hhidden, -⟩ := CelendarVC.viewDidLoad_spec h
  refine ⟨?_, ?_, ?_⟩
  · intro hvisible
    simp [opened, hhidden] at hvisible
  · intro hanswered
    simp [opened] at hanswered
  · intro row t _ d hd
    simp [opened] at hd

/-- A hidden table offers nothing. -/
theorem neverUnblocks_of_hidden {s : CalendarState} (h : s.vc.tableViewTimeHidden = true) :
    s.NeverUnblocks := by
  rintro row t ⟨hvisible, -, -⟩
  simp [h] at hvisible

/-- A step that keeps the rows, the selected day and what is visible keeps the invariant. -/
theorem FreeInv.frame {s s' : CalendarState} (hi : FreeInv s)
    (hhidden : s'.vc.tableViewTimeHidden = s.vc.tableViewTimeHidden)
    (hdate : s'.vc.dateDate = s.vc.dateDate)
    (hslots : s'.vc.arrayDateSetviceEntry = s.vc.arrayDateSetviceEntry)
    (hblock : ∀ t ∈ s.vc.arrayTimesBlock, t ∈ s'.vc.arrayTimesBlock)
    (hrows : s'.rows = s.rows) (hsel : s'.atSelection = s.atSelection)
    (hanswered : s'.answered = s.answered) : FreeInv s' := by
  have hdates : s'.rowDates = s.rowDates := by simp only [rowDates, hdate, hslots]
  refine ⟨?_, ?_, ?_⟩
  · rw [hhidden, hanswered]
    exact hi.shown
  · rw [hanswered, hsel, hdates]
    exact fun ha d hd t ht hrow => hblock t (hi.blocked ha d hd t ht hrow)
  · rintro row t ⟨hvisible, hrow, r, hr, henabled⟩ d hd
    rw [hhidden] at hvisible
    rw [CelendarVC.rowDate, hslots, hdate] at hrow
    rw [hrows] at hr
    rw [hsel] at hd
    exact hi.free row t ⟨hvisible, hrow, r, hr, henabled⟩ d hd

theorem freeInv_tapDay {s s' : CalendarState} {row : Nat} {now : Int} (hi : FreeInv s)
    (hselected : ∀ d, s.selectedItem = some row → s.vc.dateOfCell row = some d →
      d = s.vc.dateDate)
    (hc : AnswersInOrder s (.tapDay row now)) (h : s.tapDay row now = some s') : FreeInv s' := by
  rcases tapDay_cases h with ⟨hsel, pending, rfl⟩ | ⟨hsel, vc, pending, hvc, rfl⟩
  · -- the selected cell once more: only the indicator and the queries change
    refine hi.frame ?_ ?_ ?_ ?_ rfl rfl rfl <;>
      cases hdate : s.vc.dateOfCell row with
      | none => simp [CelendarVC.didSelectItemAt_of_none hdate]
      | some d =>
          have := hselected d hsel hdate
          simp [CelendarVC.didSelectItemAt_of_some hdate, this]
  · -- a newly selected day: the table is hidden
    have hhidden : vc.tableViewTimeHidden = true := by
      rw [hvc]
      cases hprev : s.selectedItem with
      | none => simpa [hprev] using hc hprev
      | some selected => simp [CelendarVC.didDeselectItemAt]
    have hafter : (vc.didSelectItemAt row).1.tableViewTimeHidden = true := by
      cases hdate : vc.dateOfCell row with
      | none => rw [CelendarVC.didSelectItemAt_of_none hdate, hhidden]
      | some d => rw [CelendarVC.didSelectItemAt_of_some hdate, hhidden]
    refine ⟨?_, ?_, neverUnblocks_of_hidden hafter⟩
    · intro hvisible
      simp [hafter] at hvisible
    · intro hanswered
      simp at hanswered

theorem freeInv_response {s s' : CalendarState} {i : Nat} {documents : List Document}
    (hi : FreeInv s) (hf : Faithful s (.response i documents))
    (hc : AnswersInOrder s (.response i documents)) (h : s.response i documents = some s') :
    FreeInv s' := by
  obtain ⟨p, hp, ⟨hcomplete, rfl⟩ | ⟨-, rfl⟩⟩ := response_cases h
  · obtain ⟨hall, hstamps⟩ := hf p hp
    have htimes : (CelendarVC.appendTimes documents).1 = documents.filterMap (·.dttmEntry) := by
      rw [CelendarVC.appendTimes_of_timestamps
        (fun d hd => Option.isSome_iff_exists.mp (hstamps d hd))]
      rfl
    refine ⟨fun _ => rfl, ?_, ?_⟩
    · intro _ d hd t ht hrow
      -- an earlier response has blocked the time already, or this one brings its document
      by_cases hold : t ∈ s.vc.arrayTimesBlock
      · exact List.mem_append_left _ hold
      · apply List.mem_append_right
        show t ∈ (CelendarVC.appendTimes documents).1
        rw [htimes]
        refine List.mem_filterMap.mpr ⟨d, ?_, ht⟩
        cases hanswered : s.answered with
        | true => exact absurd (hi.blocked hanswered d hd t ht hrow) hold
        | false => exact hall d (hc hanswered p hp d hd t ht hrow hold)
    · rintro row t ⟨-, -, r, hr, -⟩
      simp at hr
  · -- the loop stopped at a document without a timestamp: nothing is shown
    exact hi.frame rfl rfl rfl (fun t ht => List.mem_append_left _ ht) rfl rfl rfl

theorem freeInv_render {s s' : CalendarState} {row : Nat} {now : Int} (hi : FreeInv s)
    (h : s.render row now = some s') : FreeInv s' := by
  obtain ⟨cell, t, hdate, htest, -, rfl⟩ := render_cases h
  refine ⟨hi.shown, hi.blocked, ?_⟩
  rintro row' t' ⟨hvisible, hrow', r, hr, henabled⟩ d hd
  rcases rows_of_render hr with ⟨rfl, rfl⟩ | hr
  · have ht : s.vc.rowDate row' = some t' := hrow'
    rw [hdate, Option.some.injEq] at ht
    subst ht
    intro hd'
    exact (htest henabled).2 (hi.blocked (hi.shown hvisible) d hd t hd' (rowDate_mem hdate))
  · exact hi.free row' t' ⟨hvisible, hrow', r, hr, henabled⟩ d hd

/-- The invariant of the time table of `TappedRow.lean` holds as well: the condition on the order
of the responses hides the rows of another day. -/
theorem hidesStaleRows_of_answersInOrder {s : CalendarState} {e : CalendarEvent}
    (h : AnswersInOrder s e) : HidesStaleRows s e := by
  cases e with
  | tapDay row now => exact fun hnone => Or.inl (h hnone)
  | write _ | nextMonth _ | backMonth _ | response _ _ | responseError _ | render _ _ =>
      trivial

theorem freeInv_step {s s' : CalendarState} {e : CalendarEvent} (hrow : RowInv s)
    (hi : FreeInv s) (hf : Faithful s e) (hc : AnswersInOrder s e) (h : s.step e = some s') :
    FreeInv s' := by
  have hmonth : ∀ monthFinish, s.step (.nextMonth monthFinish) = some s' ∨
      s.step (.backMonth monthFinish) = some s' → FreeInv s' := by
    intro monthFinish hstep
    obtain ⟨month, year, currentMonth, firstWeeakDayMonth, next, back, rfl⟩ :=
      changeMonth_cases hstep
    exact hi.frame rfl rfl rfl (fun _ ht => ht) rfl rfl rfl
  cases e with
  | write content =>
      obtain rfl := Option.some.inj h
      exact hi.frame rfl rfl rfl (fun _ ht => ht) rfl rfl rfl
  | tapDay row now =>
      exact freeInv_tapDay hi (fun d hsel hd => hrow.selected row hsel d hd) hc h
  | nextMonth monthFinish => exact hmonth monthFinish (Or.inl h)
  | backMonth monthFinish => exact hmonth monthFinish (Or.inr h)
  | response i documents => exact freeInv_response hi hf hc h
  | responseError i =>
      obtain rfl := Option.some.inj h
      exact hi.frame rfl rfl rfl (fun _ ht => ht) rfl rfl rfl
  | render row now => exact freeInv_render hi h

end CalendarState

/-! ## The runs of the screen -/

/-- **Late responses never unblock a taken slot**, in every run in which the first response after a
selection answers a query that covers the selected day. -/
theorem neverUnblocks_of_reach (s : CalendarState)
    (h : calendar.Reach (fun s e => s.Faithful e ∧ s.AnswersInOrder e) s) : s.NeverUnblocks := by
  have hinv : s.RowInv ∧ s.FreeInv := by
    refine h.invariant (fun s => s.RowInv ∧ s.FreeInv) ?_ ?_
    · rintro s ⟨now, monthFinish, month, year, service, master, vc, content, hload, rfl⟩
      exact ⟨CalendarState.rowInv_opened content hload, CalendarState.freeInv_opened content hload⟩
    · rintro s e s' ⟨hrow, hfree⟩ ⟨hf, hc⟩ hs
      exact ⟨CalendarState.rowInv_step hrow (CalendarState.hidesStaleRows_of_answersInOrder hc) hs,
        CalendarState.freeInv_step hrow hfree hf hc hs⟩
  exact hinv.2.free

/-- The fifth of February at 10:00 is taken. -/
def takenEntry : Document :=
  ⟨"entry", saveServiceEntryToFirebase { dttmEntry := february2020 + 4 * 86400 + 36000 }⟩

/-- The fifth is tapped and its response arrives: its first row cannot be tapped, its second row
can. -/
theorem neverUnblocks_after_response : ∃ s,
    calendar.Reach (fun s e => s.Faithful e ∧ s.AnswersInOrder e) s ∧
    ((s.tapTime 0).isSome, (s.tapTime 1).isSome) = (false, true) ∧ s.NeverUnblocks := by
  have htaps : (calendarRun (fun s e => s.Faithful e ∧ s.AnswersInOrder e) february2020 2 1 2020
      hourService {} [takenEntry] [.tapDay 9 february2020, .response 0 [takenEntry],
        .render 0 february2020, .render 1 february2020]).map
        (fun s => ((s.tapTime 0).isSome, (s.tapTime 1).isSome)) = some (false, true) := by decide
  obtain ⟨s, hrun, hs⟩ := Option.map_eq_some_iff.mp htaps
  have hreach := reach_of_calendarRun hrun
  exact ⟨s, hreach, hs, neverUnblocks_of_reach s hreach⟩

/-- The twentieth is tapped and then the fifth, and the response for the twentieth arrives. -/
def lateResponseEvents : List CalendarEvent :=
  [.tapDay 24 february2020, .tapDay 9 february2020, .response 0 [], .render 0 february2020]

/-- **The unblocked slot.** The response for the twentieth shows the table of the fifth, where the
row of the taken time can be tapped. -/
theorem not_neverUnblocks :
    ¬ ∀ s, calendar.Reach CalendarState.Faithful s → s.NeverUnblocks := by
  intro hall
  have hoffer : (calendarRun CalendarState.Faithful february2020 2 1 2020 hourService {}
      [takenEntry] lateResponseEvents).map (fun s => (s.vc.tableViewTimeHidden, s.vc.rowDate 0,
        (s.rows 0).map (·.cell.isUserInteractionEnabled), s.atSelection))
      = some (false, some (february2020 + 4 * 86400 + 36000), some true, [takenEntry]) := by decide
  obtain ⟨s, hrun, hs⟩ := Option.map_eq_some_iff.mp hoffer
  simp only [Prod.mk.injEq] at hs
  obtain ⟨hvisible, hdate, hrow, hsel⟩ := hs
  obtain ⟨r, hr, henabled⟩ := Option.map_eq_some_iff.mp hrow
  refine hall s (reach_of_calendarRun hrun) 0 _ ⟨hvisible, hdate, r, hr, henabled⟩
    takenEntry ?_ (by decide)
  rw [hsel]
  exact List.mem_singleton_self _

end Flamingo
