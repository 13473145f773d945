import Mathlib.Data.List.ReduceOption
import Flamingo.DBManager.KeptRecords
import Flamingo.PresentService.DetailServiceVC

set_option autoImplicit false

/-! # Live reads

The screens read what they hold, so they read nothing that is gone as long as every pass spares
what is held: a service whose document is still there, and a master whose document is still there
and has not changed.
-/

namespace Flamingo

namespace ServiceScreens

/-! ## What the screens hold -/

theorem mem_heldServices {s : ServiceScreens} {key : Nat} :
    key ∈ s.heldServices ↔
      (∃ vc ∈ s.detail, vc.service = key) ∨ ∃ vc ∈ s.appointment, vc.service = key := by
  simp [heldServices]

theorem mem_heldMasters {s : ServiceScreens} {key : Nat} :
    key ∈ s.heldMasters ↔
      (∃ vc ∈ s.detail, key ∈ vc.masters) ∨ ∃ vc ∈ s.appointment, some key ∈ vc.arrayMaster := by
  unfold heldMasters
  rw [List.mem_append]
  cases s.detail <;> cases s.appointment <;> simp [List.reduceOption_mem_iff]

theorem heldLive_iff {s : ServiceScreens} :
    s.HeldLive ↔
      (∀ vc ∈ s.detail, (s.readService vc.service).isSome ∧
        ∀ key ∈ vc.masters, (s.readMaster key).isSome) ∧
      ∀ vc ∈ s.appointment, (s.readService vc.service).isSome ∧
        ∀ held ∈ vc.arrayMaster, (AppointmentObjects.readArrayMaster s held).isSome := by
  constructor
  · rintro ⟨hservice, hmaster⟩
    refine ⟨fun vc hvc => ⟨?_, ?_⟩, fun vc hvc => ⟨?_, ?_⟩⟩
    · exact hservice _ (mem_heldServices.mpr (Or.inl ⟨vc, hvc, rfl⟩))
    · exact fun key hkey => hmaster key (mem_heldMasters.mpr (Or.inl ⟨vc, hvc, hkey⟩))
    · exact hservice _ (mem_heldServices.mpr (Or.inr ⟨vc, hvc, rfl⟩))
    · rintro (_ | key) hheld
      · rfl
      · exact hmaster key (mem_heldMasters.mpr (Or.inr ⟨vc, hvc, hheld⟩))
  · rintro ⟨hdetail, happointment⟩
    constructor
    · intro key hkey
      rcases mem_heldServices.mp hkey with ⟨vc, hvc, rfl⟩ | ⟨vc, hvc, rfl⟩
      · exact (hdetail vc hvc).1
      · exact (happointment vc hvc).1
    · intro key hkey
      rcases mem_heldMasters.mp hkey with ⟨vc, hvc, hmem⟩ | ⟨vc, hvc, hmem⟩
      · exact (hdetail vc hvc).2 key hmem
      · exact (happointment vc hvc).2 (some key) hmem

end ServiceScreens

/-! ## What the screens read -/

/-- A row of a list that is read row by row. -/
theorem bind_getElem?_of_forall₂ {α β : Type} {read : α → Option β} {l : List α} {l' : List β}
    (h : List.Forall₂ (fun a b => read a = some b) l l') (row : Nat) :
    l[row]?.bind read = l'[row]? := by
  induction h generalizing row with
  | nil => rfl
  | cons hhead _ ih =>
      cases row with
      | zero => exact hhead
      | succ row => exact ih row

/-- The entry that is sent is the one of a screen that keeps the fields of its objects. -/
theorem AppointmentObjects.makeAppointment_eq {vc : AppointmentObjects} {s : ServiceScreens}
    (form : MakeAppointmentVC) {service : Service} {arrayMaster : List Master}
    (hservice : s.readService vc.service = some service)
    (hmasters : List.Forall₂ (fun held master => AppointmentObjects.readArrayMaster s held = some master)
      vc.arrayMaster arrayMaster) :
    vc.makeAppointment s form
      = (MakeAppointmentVC.makeAppointment { form with service, arrayMaster }).map Prod.snd := by
  have hrow := bind_getElem?_of_forall₂ hmasters form.getIdMasterEntry
  -- the checks and the visible row do not depend on the objects
  have hchecks : (MakeAppointmentVC.checkNameClient { form with service, arrayMaster } &&
      MakeAppointmentVC.checkPhoneClient { form with service, arrayMaster } &&
      MakeAppointmentVC.checkDataEntry { form with service, arrayMaster })
      = (form.checkNameClient && form.checkPhoneClient && form.checkDataEntry) := rfl
  have hindex : MakeAppointmentVC.getIdMasterEntry { form with service, arrayMaster }
      = form.getIdMasterEntry := rfl
  unfold AppointmentObjects.makeAppointment MakeAppointmentVC.makeAppointment
  rw [hchecks]
  by_cases hfilled : (form.checkNameClient && form.checkPhoneClient && form.checkDataEntry) = true
  · rw [if_pos hfilled, if_pos hfilled, hservice]
    simp only [MakeAppointmentVC.collectServiceEntry, hindex, ← hrow, Option.bind_eq_bind,
      Option.bind_some]
    cases vc.arrayMaster[form.getIdMasterEntry]? with
    | none => rfl
    | some held =>
        simp only [Option.bind_some]
        cases AppointmentObjects.readArrayMaster s held <;> rfl
  · rw [if_neg hfilled, if_neg hfilled, Option.map_some]

theorem DetailServiceVC.viewDidLoad_eq_some {s : ServiceScreens} {key : Nat}
    (h : (s.readService key).isSome) :
    ∃ masters cell, DetailServiceVC.viewDidLoad s key = some (⟨key, masters⟩, cell) ∧
      ∀ k ∈ masters, (s.readMaster k).isSome := by
  obtain ⟨service, hservice⟩ := Option.isSome_iff_exists.mp h
  refine ⟨(getMasterFromTheDataBase service s.masters.table.objects).map Prod.fst,
    ⟨[service.nameService, service.serviceDescription], service.image⟩, ?_, ?_⟩
  · rw [DetailServiceVC.viewDidLoad, hservice]
    rfl
  · intro k hk
    obtain ⟨o, ho, rfl⟩ := List.mem_map.mp hk
    exact Table.read_isSome_iff.mpr ⟨o, List.mem_of_mem_filter ho, rfl⟩

theorem DetailServiceVC.cellForItemAt_isSome {vc : DetailServiceVC} {s : ServiceScreens} {row : Nat}
    (hrow : row < vc.masters.length) (hlive : ∀ key ∈ vc.masters, (s.readMaster key).isSome) :
    (vc.cellForItemAt s row).isSome := by
  obtain ⟨master, hmaster⟩ := Option.isSome_iff_exists.mp (hlive _ (List.getElem_mem hrow))
  rw [DetailServiceVC.cellForItemAt, List.getElem?_eq_getElem hrow, Option.bind_eq_bind,
    Option.bind_some, hmaster]
  rfl

/-- A flipped flag leaves every service where it is. -/
theorem read_isSome_updateFavorites {realm : Realm} {services services' : Table Service}
    {id : String} (h : updateFavorites realm services id = some services') (key : Nat) :
    (services'.read key).isSome ↔ (services.read key).isSome := by
  obtain ⟨selected, -, htable⟩ := Option.bind_eq_some_iff.mp h
  cases selected with
  | none =>
      obtain rfl := Option.some.inj htable
      exact Iff.rfl
  | some o =>
      obtain rfl := Option.some.inj htable
      exact Table.read_isSome_write services key o.1 flipFavorites

/-- The lookup finds a service if its text holds of one. -/
theorem firstFavorite_isSome_iff {realm : Realm} {objects : Results Service} {id : String} :
    (firstFavorite realm objects id).join.isSome ↔
      ∃ predicate ∈ realm.servicePredicate (favoritesFormat id), ∃ o ∈ objects,
        predicate o.2 = true := by
  unfold firstFavorite
  cases realm.servicePredicate (favoritesFormat id) with
  | none => simp
  | some predicate =>
      simp only [Option.map_some, Option.join_some, List.isSome_head?, Option.mem_def,
        Option.some.injEq, exists_eq_left', Results.filter, ne_eq, List.filter_eq_nil_iff, not_forall,
        exists_prop, not_not]

/-- The flag is flipped if the lookup finds a service, and otherwise the action traps. -/
theorem DetailServiceVC.favoritesAction_cases {realm : Realm} {vc : DetailServiceVC}
    {s : ServiceScreens} {service : Service} (hservice : s.readService vc.service = some service) :
    ((firstFavorite realm s.services.table.objects service.id).join.isSome ∧
      ∃ table star, vc.favoritesAction realm s
          = some ({ s with services := { s.services with table } }, star) ∧
        ∀ key, (table.read key).isSome ↔ (s.readService key).isSome) ∨
    (¬ (firstFavorite realm s.services.table.objects service.id).join.isSome ∧
      vc.favoritesAction realm s = none) := by
  unfold DetailServiceVC.favoritesAction
  rw [hservice, Option.bind_eq_bind, Option.bind_some]
  cases hfirst : firstFavorite realm s.services.table.objects service.id with
  | none => exact Or.inr ⟨Bool.noConfusion, rfl⟩
  | some first =>
      cases first with
      | none => exact Or.inr ⟨Bool.noConfusion, rfl⟩
      | some o =>
          have hupdate : updateFavorites realm s.services.table service.id
              = some (Table.write s.services.table o.1 flipFavorites) := by
            unfold updateFavorites
            rw [hfirst, Option.bind_eq_bind, Option.bind_some]
            rfl
          refine Or.inl ⟨rfl, _, !o.2.favorites, ?_, read_isSome_updateFavorites hupdate⟩
          rw [hupdate]
          rfl

theorem AppointmentObjects.cellForRowAt_isSome {vc : AppointmentObjects} {s : ServiceScreens}
    {row : Nat} (hrow : row < vc.arrayMaster.length) (hservice : (s.readService vc.service).isSome)
    (hlive : ∀ held ∈ vc.arrayMaster, (AppointmentObjects.readArrayMaster s held).isSome) :
    (vc.cellForRowAt s row).isSome := by
  obtain ⟨master, hmaster⟩ := Option.isSome_iff_exists.mp (hlive _ (List.getElem_mem hrow))
  obtain ⟨service, hservice⟩ := Option.isSome_iff_exists.mp hservice
  unfold AppointmentObjects.cellForRowAt
  by_cases hfirst : row = 0
  · rw [if_pos hfirst]
    rfl
  · rw [if_neg hfirst, List.getElem?_eq_getElem hrow, Option.bind_eq_bind, Option.bind_some, hmaster, hservice]
    rfl

theorem AppointmentObjects.makeAppointment_isSome {vc : AppointmentObjects} {s : ServiceScreens}
    {form : MakeAppointmentVC} (hrow : form.getIdMasterEntry < vc.arrayMaster.length)
    (hservice : (s.readService vc.service).isSome)
    (hlive : ∀ held ∈ vc.arrayMaster, (AppointmentObjects.readArrayMaster s held).isSome) :
    (vc.makeAppointment s form).isSome := by
  obtain ⟨service, hservice⟩ := Option.isSome_iff_exists.mp hservice
  have hmasters : List.Forall₂
      (fun held master => AppointmentObjects.readArrayMaster s held = some master) vc.arrayMaster
      (vc.arrayMaster.map (fun held => (AppointmentObjects.readArrayMaster s held).getD {})) := by
    rw [List.forall₂_map_right_iff, List.forall₂_same]
    intro held hheld
    obtain ⟨master, hmaster⟩ := Option.isSome_iff_exists.mp (hlive held hheld)
    rw [hmaster, Option.getD_some]
  rw [AppointmentObjects.makeAppointment_eq form hservice hmasters, Option.isSome_map]
  refine MakeAppointmentVC.makeAppointment_isSome ?_
  rw [List.length_map]
  exact hrow

namespace ServiceScreens

variable {realm : Realm} {isURL : String → Bool}

/-! ## One step -/

/-- A pass over the services leaves what is held exactly if it spares it. -/
theorem heldLive_services {s : ServiceScreens} {services : SyncState serviceClass} {e : SyncEvent}
    (hi : s.HeldLive) (h : s.services.step isURL e = some services) :
    HeldLive { s with services } ↔ ∀ key ∈ s.heldServices, s.services.Spares key e := by
  have hkeys : ∀ key ∈ s.heldServices, ((services.table.read key).isSome ↔ s.services.Spares key e) :=
    fun key hkey => SyncState.read_isSome_step (hi.service key hkey) h
  constructor
  · intro hlive key hkey
    exact (hkeys key hkey).mp (hlive.service key hkey)
  · intro hspares
    exact ⟨fun key hkey => (hkeys key hkey).mpr (hspares key hkey), hi.master⟩

theorem heldLive_masters {s : ServiceScreens} {masters : SyncState masterClass} {e : SyncEvent}
    (hi : s.HeldLive) (h : s.masters.step isURL e = some masters) :
    HeldLive { s with masters } ↔ ∀ key ∈ s.heldMasters, s.masters.Spares key e := by
  have hkeys : ∀ key ∈ s.heldMasters, ((masters.table.read key).isSome ↔ s.masters.Spares key e) :=
    fun key hkey => SyncState.read_isSome_step (hi.master key hkey) h
  constructor
  · intro hlive key hkey
    exact (hkeys key hkey).mp (hlive.master key hkey)
  · intro hspares
    exact ⟨hi.service, fun key hkey => (hkeys key hkey).mpr (hspares key hkey)⟩

/-- The detail screen holds the masters that it has looked up. -/
theorem heldLive_present {s : ServiceScreens} (hi : s.HeldLive) {vc : DetailServiceVC}
    (hread : (s.readService vc.service).isSome)
    (hmasters : ∀ key ∈ vc.masters, (s.readMaster key).isSome) :
    HeldLive { s with detail := some vc } := by
  refine heldLive_iff.mpr ⟨?_, (heldLive_iff.mp hi).2⟩
  rintro vc' hvc'
  obtain rfl := Option.some.inj hvc'
  exact ⟨hread, hmasters⟩

/-- The appointment screen holds what the detail screen holds. -/
theorem heldLive_makeApp {s : ServiceScreens} (hi : s.HeldLive) {vc : DetailServiceVC}
    (hvc : s.detail = some vc) :
    HeldLive { s with appointment := some ⟨vc.service, none :: vc.masters.map some⟩ } := by
  have hlive := heldLive_iff.mp hi
  refine heldLive_iff.mpr ⟨hlive.1, ?_⟩
  rintro _ hvc'
  obtain rfl := Option.some.inj hvc'
  refine ⟨(hlive.1 vc hvc).1, ?_⟩
  intro held hheld
  -- the placeholder is not in Realm, the others are the masters of the detail screen
  rcases List.mem_cons.mp hheld with rfl | hheld
  · rfl
  · obtain ⟨key, hkey, rfl⟩ := List.mem_map.mp hheld
    exact (hlive.1 vc hvc).2 key hkey

/-- The lookup of a favourite is unwrapped by force, so it has to find a service. -/
theorem readsLive_favoritesAction {s : ServiceScreens} (hi : s.HeldLive) {vc : DetailServiceVC}
    (hvc : s.detail = some vc) :
    ReadsLive (Process.next (step realm isURL) s .favoritesAction) ↔
      s.Spares realm .favoritesAction := by
  obtain ⟨service, hservice⟩ := Option.isSome_iff_exists.mp ((heldLive_iff.mp hi).1 vc hvc).1
  have hspares : s.Spares realm .favoritesAction ↔
      (firstFavorite realm s.services.table.objects service.id).join.isSome := by
    refine Iff.trans ?_ firstFavorite_isSome_iff.symm
    simp only [Spares, hvc, hservice, Option.mem_def, Option.some.injEq, forall_eq']
    exact Iff.rfl
  rw [hspares]
  rcases DetailServiceVC.favoritesAction_cases hservice with
    ⟨hfound, table, star, haction, hread⟩ | ⟨hnone, haction⟩
  · rw [Process.next_of_some (show step realm isURL s .favoritesAction
      = some { s with services := { s.services with table } } from
        Option.bind_eq_some_iff.mpr ⟨vc, hvc, by rw [haction, Option.map_some]⟩)]
    refine iff_of_true ⟨?_, hi.master⟩ hfound
    exact fun key hkey => (hread key).mpr (hi.service key hkey)
  · rw [Process.next_of_none (show step realm isURL s .favoritesAction = none by
      rw [step, hvc, Option.bind_some, haction, Option.map_none])]
    exact iff_of_false id hnone

/-- **One step** from live screens leaves live screens exactly if it meets the condition. -/
theorem readsLive_next {s : ServiceScreens} {e : ServiceScreensEvent} (hi : s.HeldLive)
    (henabled : s.enabled isURL e = true) :
    ReadsLive (Process.next (step realm isURL) s e) ↔ s.Spares realm e := by
  have hlive := heldLive_iff.mp hi
  cases e with
  | services e =>
      obtain ⟨services, hservices⟩ := Option.isSome_iff_exists.mp henabled
      rw [Process.next_of_some (show step realm isURL s (.services e) = some { s with services } by
        rw [step, hservices, Option.map_some])]
      exact heldLive_services hi hservices
  | masters e =>
      obtain ⟨masters, hmasters⟩ := Option.isSome_iff_exists.mp henabled
      rw [Process.next_of_some (show step realm isURL s (.masters e) = some { s with masters } by
        rw [step, hmasters, Option.map_some])]
      exact heldLive_masters hi hmasters
  | present key =>
      obtain ⟨-, hread⟩ := (Bool.and_eq_true _ _).mp henabled
      obtain ⟨masters, cell, hload, hmasters⟩ := DetailServiceVC.viewDidLoad_eq_some hread
      rw [Process.next_of_some (show step realm isURL s (.present key)
        = some { s with detail := some ⟨key, masters⟩ } by rw [step, hload, Option.map_some])]
      exact iff_of_true (heldLive_present hi hread hmasters) trivial
  | cellForItemAt row =>
      obtain ⟨vc, hvc, hrow⟩ := (Option.any_eq_true _ _).mp henabled
      obtain ⟨cell, hcell⟩ := Option.isSome_iff_exists.mp
        (DetailServiceVC.cellForItemAt_isSome (of_decide_eq_true hrow) (hlive.1 vc hvc).2)
      rw [Process.next_of_some (show step realm isURL s (.cellForItemAt row) = some s by
        rw [step, hvc, Option.bind_some, hcell, Option.map_some])]
      exact iff_of_true hi trivial
  | favoritesAction =>
      obtain ⟨vc, hvc⟩ := Option.isSome_iff_exists.mp ((Bool.and_eq_true _ _).mp henabled).1
      exact readsLive_favoritesAction hi hvc
  | actionPresentMakeApp =>
      obtain ⟨vc, hvc⟩ := Option.isSome_iff_exists.mp ((Bool.and_eq_true _ _).mp henabled).1
      obtain ⟨service, hservice⟩ := Option.isSome_iff_exists.mp (hlive.1 vc hvc).1
      rw [Process.next_of_some (show step realm isURL s .actionPresentMakeApp
        = some { s with appointment := some ⟨vc.service, none :: vc.masters.map some⟩ } by
          rw [step, hvc, Option.bind_some, AppointmentObjects.viewDidLoad, DetailServiceVC.prepare,
            hservice]
          rfl)]
      exact iff_of_true (heldLive_makeApp hi hvc) trivial
  | dismissAction => exact iff_of_true (heldLive_iff.mpr ⟨nofun, hlive.2⟩) trivial
  | cellForRowAt row =>
      obtain ⟨vc, hvc, hrow⟩ := (Option.any_eq_true _ _).mp henabled
      obtain ⟨cell, hcell⟩ := Option.isSome_iff_exists.mp
        (AppointmentObjects.cellForRowAt_isSome (of_decide_eq_true hrow) (hlive.2 vc hvc).1
          (hlive.2 vc hvc).2)
      rw [Process.next_of_some (show step realm isURL s (.cellForRowAt row) = some s by
        rw [step, hvc, Option.bind_some, hcell, Option.map_some])]
      exact iff_of_true hi trivial
  | makeAppointment form =>
      obtain ⟨vc, hvc, hrow⟩ := (Option.any_eq_true _ _).mp henabled
      obtain ⟨entry, hentry⟩ := Option.isSome_iff_exists.mp
        (AppointmentObjects.makeAppointment_isSome (of_decide_eq_true hrow) (hlive.2 vc hvc).1
          (hlive.2 vc hvc).2)
      rw [Process.next_of_some (show step realm isURL s (.makeAppointment form)
        = some (if entry.isSome then { s with appointment := none } else s) by
          rw [step, hvc, Option.bind_some, hentry, Option.map_some])]
      refine iff_of_true ?_ trivial
      split_ifs
      · exact heldLive_iff.mpr ⟨hlive.1, nofun⟩
      · exact hi
  | exitAction => exact iff_of_true (heldLive_iff.mpr ⟨hlive.1, nofun⟩) trivial

theorem readsLive_step {p p' : Process ServiceScreens} {e : ServiceScreensEvent}
    (hi : ReadsLive p) (h : (serviceScreens realm isURL).step p e = some p') :
    ReadsLive p' ↔ Process.Meets (Spares realm) p e := by
  obtain ⟨s, rfl, henabled, rfl⟩ := Process.machine_step_cases h
  exact readsLive_next hi henabled

/-- Screens that are not open hold nothing. -/
theorem readsLive_init {p : Process ServiceScreens} (h : (serviceScreens realm isURL).init p) :
    ReadsLive p := by
  obtain ⟨s, ⟨hdetail, happointment⟩, rfl⟩ := h
  refine heldLive_iff.mpr ⟨?_, ?_⟩
  · rw [hdetail]
    exact fun vc hvc => absurd hvc (Option.not_mem_none vc)
  · rw [happointment]
    exact fun vc hvc => absurd hvc (Option.not_mem_none vc)

/-- A lookup that is read as a comparison of ids finds the service that is held. -/
theorem spares_favoritesAction {s : ServiceScreens}
    (hreads : ∀ id, realm.servicePredicate (favoritesFormat id) = some (fun service => service.id == id)) :
    s.Spares realm .favoritesAction := by
  intro vc _ service hservice
  obtain ⟨o, ho, -, rfl⟩ := Table.exists_of_read hservice
  exact ⟨_, hreads o.2.id, o, ho, beq_self_eq_true _⟩

end ServiceScreens

/-! ## The runs -/

/-- **Only live objects** are read, in the runs in which each pass spares what the screens hold and
each text of a lookup of a favourite holds of a stored service. The step after such a run keeps this
if and only if it meets the condition, which a lookup does whose text is read as a comparison of
ids. -/
theorem readsLive_of_reach (realm : Realm) (isURL : String → Bool) (p : Process ServiceScreens)
    (h : (serviceScreens realm isURL).Reach (Process.Meets (ServiceScreens.Spares realm)) p) :
    ReadsLive p ∧
    (∀ e p', (serviceScreens realm isURL).step p e = some p' →
      (ReadsLive p' ↔ Process.Meets (ServiceScreens.Spares realm) p e)) ∧
    ((∀ id, realm.servicePredicate (favoritesFormat id) = some (fun service => service.id == id)) →
      Process.Meets (ServiceScreens.Spares realm) p .favoritesAction) := by
  have hlive : ReadsLive p := by
    refine h.invariant ReadsLive (fun _ h0 => ServiceScreens.readsLive_init h0) ?_
    intro p e p' hi hc hs
    exact (ServiceScreens.readsLive_step hi hs).mpr hc
  refine ⟨hlive, fun e p' hs => ServiceScreens.readsLive_step hlive hs, fun hreads => ?_⟩
  cases p with
  | running s => exact ServiceScreens.spares_favoritesAction hreads
  | trapped => trivial

instance (realm : Realm) (s : ServiceScreens) (e : ServiceScreensEvent) :
    Decidable (s.Spares realm e) :=
  match e with
  | .services e => inferInstanceAs (Decidable (∀ key ∈ s.heldServices, s.services.Spares key e))
  | .masters e => inferInstanceAs (Decidable (∀ key ∈ s.heldMasters, s.masters.Spares key e))
  | .favoritesAction => inferInstanceAs (Decidable (∀ vc ∈ s.detail,
      ∀ service ∈ s.readService vc.service,
        ∃ predicate ∈ realm.servicePredicate (favoritesFormat service.id),
          ∃ o ∈ s.services.table.objects, predicate o.2 = true))
  | .present _ | .cellForItemAt _ | .actionPresentMakeApp | .dismissAction | .cellForRowAt _
  | .makeAppointment _ | .exitAction => .isTrue trivial

/-- A service with one master. -/
def oneMasterScreens : ServiceScreens where
  services := ⟨Table.empty.saveObjectRealm
    { id := "first", nameService := "manicure", idsMasters := "1" }, [], none⟩
  masters := oneMaster
  detail := none
  appointment := none

theorem init_oneMasterScreens (realm : Realm) (isURL : String → Bool) :
    (serviceScreens realm isURL).init (.running oneMasterScreens) :=
  ⟨oneMasterScreens, ⟨rfl, rfl⟩, rfl⟩

/-- Both passes find the documents as they were, and the booking goes on. -/
theorem readsLive_unchanged : ∃ p, ReadsLive p ∧
    p.running?.map (fun s => (s.heldMasters, (s.readService 0).map (·.favorites)))
      = some ([0, 0], some true) := by
  have hrun : ((serviceScreens idRealm (fun _ => true)).execWhere
      (Process.Meets (ServiceScreens.Spares idRealm)) (.running oneMasterScreens)
      [.present 0, .cellForItemAt 0,
        .masters (.snapshot [⟨"1", saveMasterToFirebase
          { name := "Anna", imageURL := "https://images/anna" }⟩]),
        .services (.snapshot [⟨"first", []⟩]), .favoritesAction, .actionPresentMakeApp,
        .cellForRowAt 1]).map
        (fun p => p.running?.map (fun s => (s.heldMasters, (s.readService 0).map (·.favorites))))
      = some (some ([0, 0], some true)) := by decide
  obtain ⟨p, hp, hshown⟩ := Option.map_eq_some_iff.mp hrun
  have hreach := EventMachine.reach_of_execWhere _ (init_oneMasterScreens _ _) hp
  exact ⟨p, (readsLive_of_reach idRealm _ p hreach).1, hshown⟩

/-- **The renamed master** is deleted while its service is open, and its cell is drawn. -/
theorem not_readsLive : ¬ ∀ (realm : Realm) (isURL : String → Bool) (p : Process ServiceScreens),
    (serviceScreens realm isURL).Reachable p → ReadsLive p := by
  intro hall
  have hrun : ((serviceScreens idRealm (fun _ => true)).exec (.running oneMasterScreens)
      [.present 0, .masters (.snapshot [renamedMaster]), .cellForItemAt 0]).map
        (fun p => p.running?.isNone) = some true := by decide
  obtain ⟨p, hp, hnone⟩ := Option.map_eq_some_iff.mp hrun
  have hreach := EventMachine.reachable_of_exec _ (init_oneMasterScreens _ _) hp
  obtain rfl := Process.running?_eq_none_iff.mp (Option.isNone_iff_eq_none.mp hnone)
  exact hall idRealm _ .trapped hreach

end Flamingo
