import Flamingo.AccauntPage.SampleServiceEmptyVC
import Flamingo.Lib.Filtered
import Flamingo.PresentService.MakeAppointmentVC

set_option autoImplicit false

/-! # The master and the service of an appointment

An appointment refers to its master and its service by their ids. The rows and the segues look for
the first object whose id contains that id, so that an object with a longer id may come first; and
the empty id, which an appointment without a specialist has, is contained in every id.
-/

namespace Flamingo

namespace SampleServiceEmptyVC

/-! ## The property and its condition -/

/-- What is shown for the id of a master: the stored master with that id, which is not empty, and
nothing if there is none. -/
def OwnMaster (masters : Results Master) (idMaster : String) (shown : Option (Nat × Master)) : Prop :=
  match shown with
  | some master => master ∈ masters ∧ master.2.id = idMaster ∧ idMaster ≠ ""
  | none => idMaster = "" ∨ ∀ master ∈ masters, master.2.id ≠ idMaster

def OwnService (services : Results Service) (serviceIdDocument : String)
    (shown : Option (Nat × Service)) : Prop :=
  match shown with
  | some service => service ∈ services ∧ service.2.id = serviceIdDocument
  | none => ∀ service ∈ services, service.2.id ≠ serviceIdDocument

/-- The row shows the name of the entry's master, and the segues open its master and its service. -/
structure ShowsOwn (vc : SampleServiceEmptyVC) (row : Nat) (entry : ServiceEntry) : Prop where
  name : ∀ now, ∃ cell shown, vc.cellForRowAt row now = some cell ∧
    OwnMaster vc.masters entry.idMaster shown ∧
    cell.nameMaster = (shown.map (·.2.name)).getD ""
  master : ∃ opened, (vc.actionPresent row).prepare .presentMaster
      = some (opened.map (.addNewMasterVC · true)) ∧
    OwnMaster vc.masters entry.idMaster opened
  service : ∃ opened, (vc.actionPresent row).prepare .presentService
      = some (opened.map .detailServiceVC) ∧
    OwnService vc.services entry.serviceIdDocument opened

/-- Every stored id that contains the id stands behind the id itself, or is the id. -/
def FirstIsExact (stored : List String) (id : String) : Prop :=
  ∀ before x after, stored = before ++ x :: after → Text.containsC x id = true → id ∈ before ++ [x]

/-- The ids of the entry are the first of those that contain them, and without an id there is no
master at all. -/
structure IdsDecide (vc : SampleServiceEmptyVC) (entry : ServiceEntry) : Prop where
  noMaster : entry.idMaster = "" → vc.masters = []
  masters : FirstIsExact (vc.masters.map (·.2.id)) entry.idMaster
  services : FirstIsExact (vc.services.map (·.2.id)) entry.serviceIdDocument

/-! ## The lookups -/

/-- The object that a lookup finds has the id that was looked for, if the ids decide. -/
theorem head?_filter_exact_iff {α : Type} (key : α → String) (results : Results α) (id : String) :
    (∀ o ∈ (results.filter (fun a => Text.containsC (key a) id)).head?, key o.2 = id) ↔
      FirstIsExact (results.map (fun o => key o.2)) id := by
  have hexact : ∀ x : String, (x == id) = true → Text.containsC x id = true := by
    intro x hx
    rw [beq_iff_eq.mp hx]
    exact Text.containsC_self id
  have hkeys := Filtered.head?_filter_strict_iff (p := fun x => Text.containsC x id)
    (q := fun x => x == id) hexact (results.map (fun o => key o.2))
  rw [List.filter_map, List.head?_map] at hkeys
  constructor
  · intro h before x after hsplit hx
    have hfirst := hkeys.mp (by
      intro y hy
      obtain ⟨o, ho, rfl⟩ := Option.map_eq_some_iff.mp hy
      exact beq_iff_eq.mpr (h o ho)) before x after hsplit hx
    obtain ⟨y, hy, heq⟩ := hfirst
    exact beq_iff_eq.mp heq ▸ hy
  · intro h o ho
    refine beq_iff_eq.mp (hkeys.mpr ?_ (key o.2) (Option.map_eq_some_iff.mpr ⟨o, ho, rfl⟩))
    intro before x after hsplit hx
    exact ⟨id, h before x after hsplit hx, beq_self_eq_true id⟩

/-- A lookup that finds nothing leaves no object with the id unfound. -/
theorem ne_of_head?_filter {α : Type} (key : α → String) {results : Results α} {id : String}
    (h : (results.filter (fun a => Text.containsC (key a) id)).head? = none) :
    ∀ o ∈ results, key o.2 ≠ id := by
  rintro o ho rfl
  have hmem : o ∈ results.filter (fun a => Text.containsC (key a) (key o.2)) :=
    List.mem_filter.mpr ⟨ho, Text.containsC_self _⟩
  rw [List.head?_eq_none_iff.mp h] at hmem
  cases hmem

/-- **The master that is found** is the entry's own exactly if the ids decide. -/
theorem ownMaster_iff (vc : SampleServiceEmptyVC) (idMaster : String) :
    OwnMaster vc.masters idMaster (vc.mastersWith idMaster).head? ↔
      (idMaster = "" → vc.masters = []) ∧
        FirstIsExact (vc.masters.map (·.2.id)) idMaster := by
  rw [← head?_filter_exact_iff Master.id]
  show OwnMaster vc.masters idMaster (vc.mastersWith idMaster).head? ↔
    _ ∧ ∀ o ∈ (vc.mastersWith idMaster).head?, o.2.id = idMaster
  cases hfound : (vc.mastersWith idMaster).head? with
  | some master =>
      have hmem : master ∈ vc.masters := (List.mem_filter.mp (List.mem_of_head? hfound)).1
      constructor
      · rintro ⟨-, hid, hne⟩
        refine ⟨fun hempty => absurd hempty hne, ?_⟩
        rintro o ho
        rw [← Option.some.inj ho]
        exact hid
      · rintro ⟨hempty, hid⟩
        refine ⟨hmem, hid master rfl, ?_⟩
        intro heq
        rw [hempty heq] at hmem
        cases hmem
  | none =>
      have hnone := ne_of_head?_filter Master.id hfound
      refine iff_of_true (Or.inr hnone) ⟨?_, fun o ho => by cases ho⟩
      rintro rfl
      -- every id contains the empty one, so there is no master
      by_contra hne
      obtain ⟨master, rest, hmasters⟩ := List.exists_cons_of_ne_nil hne
      rw [mastersWith, hmasters] at hfound
      have hmem : master ∈ Results.filter (master :: rest) (fun m => Text.containsC m.id "") :=
        List.mem_filter.mpr ⟨List.mem_cons_self, Text.containsC_empty _⟩
      rw [List.head?_eq_none_iff.mp hfound] at hmem
      cases hmem

theorem ownService_iff (vc : SampleServiceEmptyVC) (serviceIdDocument : String) :
    OwnService vc.services serviceIdDocument (vc.servicesWith serviceIdDocument).head? ↔
      FirstIsExact (vc.services.map (·.2.id)) serviceIdDocument := by
  rw [← head?_filter_exact_iff Service.id]
  show OwnService vc.services serviceIdDocument (vc.servicesWith serviceIdDocument).head? ↔
    ∀ o ∈ (vc.servicesWith serviceIdDocument).head?, o.2.id = serviceIdDocument
  cases hfound : (vc.servicesWith serviceIdDocument).head? with
  | some service =>
      have hmem : service ∈ vc.services := (List.mem_filter.mp (List.mem_of_head? hfound)).1
      constructor
      · rintro ⟨-, hid⟩ o ho
        rw [← Option.some.inj ho]
        exact hid
      · intro hid
        exact ⟨hmem, hid service rfl⟩
  | none => exact iff_of_true (ne_of_head?_filter Service.id hfound) (fun o ho => by cases ho)

/-! ## The row and the segues -/

theorem prepare_actionPresent {vc : SampleServiceEmptyVC} {row : Nat} {entry : ServiceEntry}
    (h : vc.sample row = some entry) :
    (vc.actionPresent row).prepare .presentMaster
        = some ((vc.mastersWith entry.idMaster).head?.map (.addNewMasterVC · true)) ∧
      (vc.actionPresent row).prepare .presentService
        = some ((vc.servicesWith entry.serviceIdDocument).head?.map .detailServiceVC) := by
  have hsample : (vc.actionPresent row).sample row = some entry := h
  constructor
  · show ((vc.actionPresent row).sample row).bind _ = _
    rw [hsample]
    rfl
  · show ((vc.actionPresent row).sample row).bind _ = _
    rw [hsample]
    rfl

/-- The name in a row is that of the master that is found. -/
theorem cellForRowAt_of_sample {vc : SampleServiceEmptyVC} {row : Nat} {entry : ServiceEntry}
    (h : vc.sample row = some entry) (now : Int) :
    ∃ cell, vc.cellForRowAt row now = some cell ∧
      cell.nameMaster = ((vc.mastersWith entry.idMaster).head?.map (·.2.name)).getD "" := by
  refine ⟨_, by rw [cellForRowAt, h]; rfl, ?_⟩
  dsimp only
  cases (vc.mastersWith entry.idMaster).head? <;> rfl

/-- **An appointment shows its own master and service** exactly if the ids decide. -/
theorem showsOwn_iff {vc : SampleServiceEmptyVC} {row : Nat} {entry : ServiceEntry}
    (h : vc.sample row = some entry) : vc.ShowsOwn row entry ↔ vc.IdsDecide entry := by
  obtain ⟨hmaster, hservice⟩ := prepare_actionPresent h
  constructor
  · rintro ⟨-, ⟨opened, hopened, hown⟩, ⟨opened', hopened', hown'⟩⟩
    -- a segue hands over the object that it has found, so what is opened is what was found
    have heq : (vc.mastersWith entry.idMaster).head? = opened := by
      refine Option.map_injective ?_ (Option.some.inj (hmaster.symm.trans hopened))
      intro a b hab
      exact (SampleDestination.addNewMasterVC.inj hab).1
    have heq' : (vc.servicesWith entry.serviceIdDocument).head? = opened' := by
      refine Option.map_injective ?_ (Option.some.inj (hservice.symm.trans hopened'))
      intro a b hab
      exact SampleDestination.detailServiceVC.inj hab
    obtain ⟨hempty, hmasters⟩ := (ownMaster_iff vc entry.idMaster).mp (heq ▸ hown)
    exact ⟨hempty, hmasters, (ownService_iff vc entry.serviceIdDocument).mp (heq' ▸ hown')⟩
  · rintro ⟨hempty, hmasters, hservices⟩
    have hown := (ownMaster_iff vc entry.idMaster).mpr ⟨hempty, hmasters⟩
    have hown' := (ownService_iff vc entry.serviceIdDocument).mpr hservices
    refine ⟨?_, ⟨_, hmaster, hown⟩, ⟨_, hservice, hown'⟩⟩
    intro now
    obtain ⟨cell, hcell, hname⟩ := cellForRowAt_of_sample h now
    exact ⟨cell, _, hcell, hown, hname⟩

/-! ## An appointment without a specialist -/

/-- The form as it is opened, with two masters after the placeholder. -/
def openedForm : MakeAppointmentVC :=
  .viewDidLoad 0 { id := "s", nameService := "Маникюр" }
    [{ id := "1", name := "Olga" }, { id := "12", name := "Irina" }] "Anna" "+7 (900) 000-0000"

/-- The account page with one appointment, the masters of the form and its service. -/
def accountWith (entry : ServiceEntry) : SampleServiceEmptyVC :=
  viewDidLoad (Table.empty.saveObjectRealm entry)
    [(0, { id := "1", name := "Olga" }), (1, { id := "12", name := "Irina" })]
    [(0, { id := "s", nameService := "Маникюр" })] (entry.dttmEntry - 1)

/-- The first master is found by its id, which the id of the second one contains. -/
theorem showsOwn_first :
    ((accountWith { idMaster := "1", serviceIdDocument := "s", dttmEntry := 0 }).cellForRowAt 0 0).map
        ServiceEnryTVCell.nameMaster = some "Olga" ∧
      ((accountWith { idMaster := "1", serviceIdDocument := "s", dttmEntry := 0 }).ShowsOwn 0
          { idMaster := "1", serviceIdDocument := "s", dttmEntry := 0 } ↔
        (accountWith { idMaster := "1", serviceIdDocument := "s", dttmEntry := 0 }).IdsDecide
          { idMaster := "1", serviceIdDocument := "s", dttmEntry := 0 }) :=
  ⟨by decide, showsOwn_iff rfl⟩

/-- **A master that was not chosen.** The row of the placeholder is visible when the appointment is
made. -/
theorem not_showsOwn :
    ¬ ∀ (form form' : MakeAppointmentVC) (vc : SampleServiceEmptyVC) (row : Nat),
      form.collectServiceEntry = some form' → vc.sample row = some form'.serviceEntry →
        vc.ShowsOwn row form'.serviceEntry := by
  intro hall
  let entry : ServiceEntry := { serviceName := "Маникюр", serviceIdDocument := "s",
                                nameClient := "Anna", numberPhoneClient := "+7 (900) 000-0000",
                                idMaster := "", dttmEntry := 0 }
  have hshows := hall openedForm { openedForm with serviceEntry := entry } (accountWith entry) 0 rfl rfl
  obtain ⟨cell, shown, hcell, hown, hname⟩ := hshows.name 0
  have holga : ((accountWith entry).cellForRowAt 0 0).map ServiceEnryTVCell.nameMaster
      = some "Olga" := by decide
  rw [hcell, Option.map_some, hname] at holga
  cases shown with
  | none => exact absurd (Option.some.inj holga) (by decide)
  | some master => exact hown.2.2 rfl

end SampleServiceEmptyVC

end Flamingo
