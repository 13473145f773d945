import Flamingo.AccauntPage.SampleServiceEmptyVC

set_option autoImplicit false

/-! # Live appointments

Filling the array makes every row live, a confirmed cancellation leaves a row that is not, and
nothing else changes which rows are: the rows are live exactly as long as no cancellation has been
confirmed since the array was filled.
-/

namespace Flamingo

namespace SampleServiceEmptyVC

/-! ## The rows and their objects -/

theorem mem_collect {vc : SampleServiceEmptyVC} {p : ServiceEntry → Bool} {key : Nat}
    (h : key ∈ (vc.collect p).arrayServiceEntrySample) : (vc.entries.read key).isSome := by
  obtain ⟨o, ho, rfl⟩ := List.mem_map.mp h
  have hmem : o ∈ vc.arrayServiceEntry := List.mem_of_mem_filter ho
  rw [arrayServiceEntry, List.mem_reverse] at hmem
  exact Table.read_isSome_iff.mpr ⟨o, (List.perm_insertionSort _ _).subset hmem, rfl⟩

/-- The segment control fills the array with samples of one kind. -/
theorem actionActEntry_eq (vc : SampleServiceEmptyVC) (index : Nat) (currentDate : Int) :
    ∃ p, vc.actionActEntry index currentDate
      = SampleServiceEmptyVC.collect { vc with selectedSegmentIndex := index } p := by
  match index with
  | 0 => exact ⟨_, rfl⟩
  | 1 => exact ⟨_, rfl⟩
  | 2 => exact ⟨_, rfl⟩
  | _ + 3 => exact ⟨_, rfl⟩

/-- A row of the table can be read if its object can. -/
theorem sample_isSome {vc : SampleServiceEmptyVC} {row : Nat} (hlive : vc.OnlyLive)
    (hrow : row < vc.arrayServiceEntrySample.length) : (vc.sample row).isSome := by
  rw [sample, List.getElem?_eq_getElem hrow, Option.bind_some]
  exact (hlive _ (List.getElem_mem hrow)).1

theorem cellForRowAt_isSome (vc : SampleServiceEmptyVC) (row : Nat) (now : Int) :
    (vc.cellForRowAt row now).isSome = (vc.sample row).isSome := by
  unfold cellForRowAt
  cases vc.sample row <;> rfl

theorem prepare_isSome (vc : SampleServiceEmptyVC) (row : Nat) (identifire : SampleSegue) :
    ((vc.actionPresent row).prepare identifire).isSome = (vc.sample row).isSome := by
  have hrow : (vc.actionPresent row).sample row = vc.sample row := rfl
  simp only [prepare, actionPresent, Option.bind_eq_bind, Option.bind_some] at hrow ⊢
  rw [hrow]
  cases vc.sample row with
  | none => rfl
  | some sample => cases identifire <;> rfl

/-! ## The invariant -/

structure SampleInv (vc : SampleServiceEmptyVC) (cancelled : Bool) : Prop where
  alert : ∀ row ∈ vc.alert, row < vc.arrayServiceEntrySample.length
  known : ∀ key ∈ vc.arrayServiceEntrySample, key < vc.entries.next
  gone : ∀ key ∈ vc.cancelled, key < vc.entries.next ∧ vc.entries.read key = none
  live : vc.OnlyLive ↔ cancelled = false

/-- What the array is filled with can be read, so it has not been cancelled. -/
theorem sampleInv_collect {vc : SampleServiceEmptyVC} {cancelled : Bool} {p : ServiceEntry → Bool}
    (hi : vc.SampleInv cancelled) (halert : vc.alert = none) : (vc.collect p).SampleInv false := by
  refine ⟨?_, ?_, hi.gone, iff_of_true ?_ rfl⟩
  · intro row hrow
    cases halert.symm.trans hrow
  · intro key hkey
    obtain ⟨o, ho, rfl⟩ := Table.read_isSome_iff.mp (mem_collect hkey)
    exact vc.entries.key_lt o ho
  · intro key hkey
    have hread := mem_collect hkey
    refine ⟨hread, fun hgone => ?_⟩
    rw [(hi.gone key hgone).2] at hread
    cases hread

theorem sampleInv_actionActEntry {vc : SampleServiceEmptyVC} {cancelled : Bool} {index : Nat}
    {now : Int} (hi : vc.SampleInv cancelled) (halert : vc.alert = none) :
    (vc.actionActEntry index now).SampleInv false := by
  obtain ⟨p, hp⟩ := actionActEntry_eq vc index now
  have hi' : SampleInv { vc with selectedSegmentIndex := index } cancelled :=
    ⟨hi.alert, hi.known, hi.gone, hi.live⟩
  rw [hp]
  exact sampleInv_collect hi' halert

/-- **A confirmed cancellation** leaves the row of the object that it has deleted. -/
theorem sampleInv_cencelEntry {vc vc' : SampleServiceEmptyVC} {cancelled : Bool} {row : Nat}
    {d : DeleteDocument} (hi : vc.SampleInv cancelled) (h : vc.cencelEntry row = some (d, vc')) :
    vc'.SampleInv true := by
  obtain ⟨key, sample, hkey, -, -, rfl⟩ := cencelEntry_eq_some h
  have hmem : key ∈ vc.arrayServiceEntrySample := List.mem_of_getElem? hkey
  refine ⟨nofun, hi.known, ?_, iff_of_false ?_ Bool.noConfusion⟩
  · intro key' hkey'
    -- the object that is deleted now, and those that were deleted before
    rcases List.mem_cons.mp hkey' with rfl | hold
    · exact ⟨hi.known key' hmem, Table.read_deleteObjectRealm_self _ _⟩
    · obtain ⟨hlt, hnone⟩ := hi.gone key' hold
      refine ⟨hlt, ?_⟩
      rw [← Option.not_isSome_iff_eq_none, Table.read_isSome_deleteObjectRealm, hnone]
      exact fun hboth => Bool.noConfusion hboth.1
  · -- the array still has the row
    intro hlive
    exact (hlive key hmem).2 List.mem_cons_self

/-- A new object has a key that no row has. -/
theorem sampleInv_saved {vc : SampleServiceEmptyVC} {cancelled : Bool} (hi : vc.SampleInv cancelled)
    (entry : ServiceEntry) :
    SampleInv { vc with entries := vc.entries.saveObjectRealm entry } cancelled := by
  refine ⟨hi.alert, ?_, ?_, ?_⟩
  · intro key hkey
    exact Nat.lt_succ_of_lt (hi.known key hkey)
  · intro key hkey
    obtain ⟨hlt, hnone⟩ := hi.gone key hkey
    exact ⟨Nat.lt_succ_of_lt hlt, by rw [Table.read_saveObjectRealm entry hlt, hnone]⟩
  · rw [← hi.live]
    apply forall₂_congr
    intro key hkey
    rw [Table.read_saveObjectRealm entry (hi.known key hkey)]

end SampleServiceEmptyVC

/-- The invariant of the screen; it has trapped only after a cancellation. -/
def ShowInv : Process SampleServiceEmptyVC → Bool → Prop
  | .running vc, cancelled => vc.SampleInv cancelled
  | .trapped, cancelled => cancelled = true

namespace SampleServiceEmptyVC

/-- What reads a row of the table and changes no object and no row. -/
theorem showInv_of_read {α : Type} {vc vc' : SampleServiceEmptyVC} {cancelled : Bool} {row : Nat}
    {e : SampleEvent} {o : Option α} (hi : vc.SampleInv cancelled)
    (hrow : row < vc.arrayServiceEntrySample.length) (hstep : vc.step e = o.map (fun _ => vc'))
    (hread : o.isSome = (vc.sample row).isSome) (hi' : vc'.SampleInv cancelled) :
    ShowInv (Process.next step vc e) cancelled := by
  cases o with
  | some a =>
      rw [Process.next_of_some hstep]
      exact hi'
  | none =>
      rw [Process.next_of_none hstep]
      show cancelled = true
      -- a row that cannot be read is not live, so something has been cancelled
      by_contra hcancelled
      have hlive := hi.live.mpr (Bool.eq_false_of_not_eq_true hcancelled)
      rw [sample_isSome hlive hrow] at hread
      cases hread

/-- **One step** keeps the invariant. -/
theorem showInv_step {p p' : Process SampleServiceEmptyVC} {cancelled : Bool} {e : SampleEvent}
    (hi : ShowInv p cancelled) (h : sampleServiceEmpty.step p e = some p') :
    ShowInv p' (cancelledSince cancelled e) := by
  obtain ⟨vc, rfl, henabled, rfl⟩ := Process.machine_step_cases h
  replace hi : vc.SampleInv cancelled := hi
  cases e with
  | actionActEntry index now =>
      exact sampleInv_actionActEntry hi (Option.isNone_iff_eq_none.mp henabled)
  | actionCancellaration row =>
      obtain ⟨-, hrow⟩ := (Bool.and_eq_true _ _).mp henabled
      refine ⟨?_, hi.known, hi.gone, hi.live⟩
      rintro row' hrow'
      obtain rfl := Option.some.inj hrow'
      exact of_decide_eq_true hrow
  | cancel =>
      refine ⟨?_, hi.known, hi.gone, hi.live⟩
      exact fun row hrow => absurd hrow (Option.not_mem_none row)
  | cencelEntry =>
      obtain ⟨row, hrow⟩ := Option.isSome_iff_exists.mp henabled
      simp only [Process.next, step, hrow, Option.bind_some]
      cases hcancel : vc.cencelEntry row with
      | none => rfl
      | some result => exact sampleInv_cencelEntry hi hcancel
  | present identifire row =>
      obtain ⟨-, hrow⟩ := (Bool.and_eq_true _ _).mp henabled
      exact showInv_of_read hi (of_decide_eq_true hrow) rfl (prepare_isSome vc row identifire)
        ⟨hi.alert, hi.known, hi.gone, hi.live⟩
  | reloadData => exact hi
  | cellForRowAt row now =>
      exact showInv_of_read hi (of_decide_eq_true henabled) rfl
        (cellForRowAt_isSome vc row now) hi
  | saved entry => exact sampleInv_saved hi entry
  | synced masters services => exact ⟨hi.alert, hi.known, hi.gone, hi.live⟩

theorem sampleInv_viewDidLoad (entries : Table ServiceEntry) (masters : Results Master)
    (services : Results Service) (now : Int) :
    (viewDidLoad entries masters services now).SampleInv false := by
  have hempty : SampleInv ⟨entries, masters, services, [], 0, none, none, []⟩ false :=
    ⟨nofun, nofun, nofun, iff_of_true nofun rfl⟩
  exact sampleInv_collect hempty rfl

end SampleServiceEmptyVC

theorem showsOnlyLive_iff_of_inv {p : Process SampleServiceEmptyVC} {cancelled : Bool}
    (hi : ShowInv p cancelled) : ShowsOnlyLive p ↔ cancelled = false := by
  cases p with
  | running vc => exact hi.live
  | trapped =>
      obtain rfl : cancelled = true := hi
      exact iff_of_false id Bool.noConfusion

/-! ## The runs -/

/-- **Only live appointments** are listed and read exactly as long as no cancellation has been
confirmed since the list was filled. -/
theorem showsOnlyLive_iff (entries : Table ServiceEntry) (masters : Results Master)
    (services : Results Service) (now : Int) (es : List SampleEvent)
    (p : Process SampleServiceEmptyVC)
    (h : sampleServiceEmpty.exec
      (.running (.viewDidLoad entries masters services now)) es = some p) :
    ShowsOnlyLive p ↔ es.foldl cancelledSince false = false := by
  have hinit : ShowInv (.running (.viewDidLoad entries masters services now)) false :=
    SampleServiceEmptyVC.sampleInv_viewDidLoad entries masters services now
  exact showsOnlyLive_iff_of_inv (EventMachine.exec_history cancelledSince ShowInv
    (fun _ _ _ _ hi hs => SampleServiceEmptyVC.showInv_step hi hs) es hinit h)

/-- Two appointments, on the first and on the second day. -/
def twoEntries : Table ServiceEntry :=
  (Table.empty.saveObjectRealm { id := "first", dttmEntry := 86400 }).saveObjectRealm
    { id := "second", dttmEntry := 2 * 86400 }

/-- The later one is cancelled, and the segment control is used. -/
theorem showsOnlyLive_refilled : ∃ p : Process SampleServiceEmptyVC,
    ShowsOnlyLive p ∧ p.running?.map (fun vc => (vc.arrayServiceEntrySample, vc.cancelled))
      = some ([0], [1]) := by
  have hrun : (sampleServiceEmpty.exec (.running (.viewDidLoad twoEntries [] [] 0))
      [.actionCancellaration 0, .cencelEntry, .actionActEntry 2 0, .cellForRowAt 0 0]).map
        (fun p => p.running?.map (fun vc => (vc.arrayServiceEntrySample, vc.cancelled)))
      = some (some ([0], [1])) := by decide
  obtain ⟨p, hp, hshown⟩ := Option.map_eq_some_iff.mp hrun
  exact ⟨p, (showsOnlyLive_iff twoEntries [] [] 0 _ p hp).mpr (by decide), hshown⟩

/-- **The cancelled row** is drawn again and traps. -/
theorem not_showsOnlyLive : ¬ ∀ p : Process SampleServiceEmptyVC,
    sampleServiceEmpty.Reachable p → ShowsOnlyLive p := by
  intro hall
  have hrun : (sampleServiceEmpty.exec (.running (.viewDidLoad twoEntries [] [] 0))
      [.actionCancellaration 0, .cencelEntry, .reloadData, .cellForRowAt 0 0]).map
        (fun p => p.running?.isNone) = some true := by decide
  obtain ⟨p, hp, hnone⟩ := Option.map_eq_some_iff.mp hrun
  have hreach : sampleServiceEmpty.Reachable p :=
    EventMachine.reachable_of_exec _ ⟨_, ⟨twoEntries, [], [], 0, rfl⟩, rfl⟩ hp
  obtain rfl := Process.running?_eq_none_iff.mp (Option.isNone_iff_eq_none.mp hnone)
  exact hall .trapped hreach

end Flamingo
