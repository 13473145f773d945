import Flamingo.PresentService.LiveReads

set_option autoImplicit false

/-! # The star of a service

`DetailServiceVC` sets its star when its outlets are connected, from the service that it holds, and
then on each tap, from the service that a lookup by the id finds. The passes in the background add
and delete services, but they rewrite none. So the star shows the flag of the service, and the flag is
the one that the taps have made of it, as long as a tap flips the flag of that service and not of
another one with the same id.
-/

namespace Flamingo

/-! ## Reading a table -/

namespace Table

variable {α : Type}

theorem read_eq_some_iff {t : Table α} {key : Nat} {a : α} :
    t.read key = some a ↔ (key, a) ∈ t.objects := by
  constructor
  · intro h
    obtain ⟨o, ho, rfl, rfl⟩ := exists_of_read h
    exact ho
  · intro h
    obtain ⟨b, hb⟩ := Option.isSome_iff_exists.mp (read_isSome_iff.mpr ⟨_, h, rfl⟩)
    obtain ⟨o, ho, hkey, rfl⟩ := exists_of_read hb
    have hsame := List.inj_on_of_nodup_map t.nodup ho h hkey
    rw [hb, hsame]

theorem read_write (t : Table α) (key key' : Nat) (f : α → α) :
    (t.write key' f).read key = if key = key' then (t.read key).map f else t.read key := by
  apply Option.ext
  intro a
  have hmem : (key, a) ∈ (t.write key' f).objects ↔
      ∃ b, (key, b) ∈ t.objects ∧ (if key = key' then f b else b) = a := by
    unfold write
    rw [List.mem_map]
    constructor
    · rintro ⟨⟨k, b⟩, ho, heq⟩
      by_cases hk : k = key'
      · rw [if_pos (beq_iff_eq.mpr hk)] at heq
        obtain ⟨rfl, rfl⟩ := Prod.mk.inj heq
        exact ⟨b, ho, if_pos hk⟩
      · rw [if_neg (mt beq_iff_eq.mp hk)] at heq
        obtain ⟨rfl, rfl⟩ := Prod.mk.inj heq
        exact ⟨b, ho, if_neg hk⟩
    · rintro ⟨b, ho, rfl⟩
      refine ⟨(key, b), ho, ?_⟩
      by_cases hk : key = key'
      · rw [if_pos (beq_iff_eq.mpr hk), if_pos hk]
      · rw [if_neg (mt beq_iff_eq.mp hk), if_neg hk]
  rw [read_eq_some_iff, hmem]
  split_ifs with hk
  · rw [Option.map_eq_some_iff]
    simp only [read_eq_some_iff]
  · simp only [read_eq_some_iff, exists_eq_right]

end Table

/-! ## A pass rewrites nothing -/

namespace SyncState

variable {c : RealmClass} {isURL : String → Bool}

theorem table_saveDataToRealm {s s' : SyncState c} {document : Document}
    (h : s.saveDataToRealm isURL document = some s') : s'.table = s.table := by
  unfold saveDataToRealm at h
  split at h
  · obtain rfl := Option.some.inj h
    rfl
  · split_ifs at h
    obtain rfl := Option.some.inj h
    rfl

theorem next_updateObject {s s' : SyncState c} {document : Document} {o : Nat × c.Object}
    (h : updateObject isURL document s o = some s') : s'.table.next = s.table.next := by
  obtain ⟨changed, -, h⟩ := Option.bind_eq_some_iff.mp h
  cases changed with
  | true => rw [table_saveDataToRealm h]; rfl
  | false =>
      obtain rfl := Option.some.inj h
      rfl

theorem next_processDocument {s s' : SyncState c} {document : Document}
    (h : s.processDocument isURL document = some s') : s'.table.next = s.table.next := by
  unfold processDocument at h
  split_ifs at h
  · rw [table_saveDataToRealm h]
  · refine OptionFold.foldlM_invariant (fun _ t => t.table.next = s.table.next) rfl ?_ h
    rintro before o after t t' - hnext hone
    rw [next_updateObject hone, hnext]

/-- No key is given a second time. -/
theorem next_le_step {s s' : SyncState c} {e : SyncEvent} (h : s.step isURL e = some s') :
    s.table.next ≤ s'.table.next := by
  cases e with
  | snapshot documents =>
      obtain ⟨t, hloop, h⟩ := Option.bind_eq_some_iff.mp h
      obtain rfl := Option.some.inj h
      have hnext : t.table.next = s.table.next := by
        refine OptionFold.foldlM_invariant (fun _ u => u.table.next = s.table.next) rfl ?_ hloop
        rintro before d after u u' - hnext hone
        rw [next_processDocument hone, hnext]
      have hold : ∀ (l : List (Nat × c.Object)) (u : Table c.Object),
          (l.foldl (fun u o => if !(documents.map (·.documentID)).contains (c.id o.2) then
            u.deleteObjectRealm o.1 else u) u).next = u.next := by
        intro l
        induction l with
        | nil => exact fun _ => rfl
        | cons o l ih =>
            intro u
            rw [List.foldl_cons, ih]
            split_ifs <;> rfl
      show s.table.next ≤ (t.removeOld (documents.map (·.documentID))).table.next
      rw [removeOld, hold, hnext]
  | snapshotError =>
      obtain rfl := Option.some.inj h
      exact le_refl _
  | complete i download =>
      obtain ⟨d, -, -, -, ⟨data, -, htable⟩ | ⟨-, htable⟩⟩ := complete_eq_some h
      · rw [htable]
        exact Nat.le_succ _
      · rw [htable]

/-- **A stored object** is deleted or left as it is. -/
theorem read_of_step {s s' : SyncState c} {e : SyncEvent} {key : Nat} {a : c.Object}
    (hkey : key < s.table.next) (h : s.step isURL e = some s')
    (hread : s'.table.read key = some a) : s.table.read key = some a := by
  cases e with
  | snapshot documents =>
      rw [Table.read_eq_some_iff] at hread ⊢
      exact ((mem_processSnapshot h).mp hread).1
  | snapshotError =>
      obtain rfl := Option.some.inj h
      exact hread
  | complete i download =>
      obtain ⟨d, -, -, -, ⟨data, -, htable⟩ | ⟨-, htable⟩⟩ := complete_eq_some h
      · rwa [htable, Table.read_saveObjectRealm _ hkey] at hread
      · rwa [htable] at hread

end SyncState

/-! ## The screen -/

/-- The screens of a service, and whether the star of the open detail screen is filled; with the
flag that its service had when the screen was opened, and the number of taps since. -/
structure StarScreens where
  screens : ServiceScreens
  star : Bool
  opened : Bool
  taps : Nat

namespace StarScreens

/-- The star is set when the screen is loaded and when it is tapped. -/
def step (realm : Realm) (isURL : String → Bool) (s : StarScreens) (e : ServiceScreensEvent) :
    Option StarScreens :=
  if s.screens.enabled isURL e then
    match e with
    | .present key => do
        let service ← s.screens.readService key
        let screens ← s.screens.step realm isURL (.present key)
        some ⟨screens, service.favorites, service.favorites, 0⟩
    | .favoritesAction => do
        let vc ← s.screens.detail
        let (screens, star) ← vc.favoritesAction realm s.screens
        some ⟨screens, star, s.opened, s.taps + 1⟩
    | e => (s.screens.step realm isURL e).map (fun screens => { s with screens })
  else none

/-- As long as the service is stored, the star shows its flag, and every tap has flipped the flag. -/
def StarFollows (s : StarScreens) : Prop :=
  ∀ vc ∈ s.screens.detail, ∀ service ∈ s.screens.readService vc.service,
    s.star = service.favorites ∧ service.favorites = Nat.iterate not s.taps s.opened

/-- A tap selects the very object that is shown. -/
def FlipsShown (realm : Realm) (s : StarScreens) : ServiceScreensEvent → Prop
  | .favoritesAction => ∀ vc ∈ s.screens.detail, ∀ service ∈ s.screens.readService vc.service,
      ∀ o ∈ (firstFavorite realm s.screens.services.table.objects service.id).join,
        o.1 = vc.service
  | _ => True

instance (realm : Realm) (s : StarScreens) (e : ServiceScreensEvent) :
    Decidable (s.FlipsShown realm e) :=
  match e with
  | .favoritesAction => inferInstanceAs (Decidable (∀ vc ∈ s.screens.detail,
      ∀ service ∈ s.screens.readService vc.service,
        ∀ o ∈ (firstFavorite realm s.screens.services.table.objects service.id).join, _ = _))
  | .services _ | .masters _ | .present _ | .cellForItemAt _ | .actionPresentMakeApp
  | .dismissAction | .cellForRowAt _ | .makeAppointment _ | .exitAction => .isTrue trivial

/-- The service that is open has been stored. -/
def Stored (s : StarScreens) : Prop :=
  ∀ vc ∈ s.screens.detail, vc.service < s.screens.services.table.next

end StarScreens

def starScreens (realm : Realm) (isURL : String → Bool) :
    EventMachine StarScreens ServiceScreensEvent where
  init s := s.screens.detail = none ∧ s.screens.appointment = none
  step := StarScreens.step realm isURL

namespace StarScreens

variable {realm : Realm} {isURL : String → Bool}

/-! ## What a step does -/

/-- **A tap** on the star. -/
theorem step_favoritesAction {s s' : StarScreens}
    (h : s.step realm isURL .favoritesAction = some s') :
    ∃ vc service o, s.screens.detail = some vc ∧ s.screens.readService vc.service = some service ∧
      firstFavorite realm s.screens.services.table.objects service.id = some (some o) ∧
      s' = ⟨{ s.screens with services :=
        { s.screens.services with table := s.screens.services.table.write o.1 flipFavorites } },
        !o.2.favorites, s.opened, s.taps + 1⟩ := by
  unfold step at h
  split_ifs at h
  obtain ⟨vc, hvc, h⟩ := Option.bind_eq_some_iff.mp h
  obtain ⟨⟨screens, star⟩, haction, h⟩ := Option.bind_eq_some_iff.mp h
  obtain ⟨service, hservice, haction⟩ := Option.bind_eq_some_iff.mp haction
  obtain ⟨first, hfirst, haction⟩ := Option.bind_eq_some_iff.mp haction
  cases first with
  | none => cases haction
  | some o =>
      -- `updateFavorites` makes the same lookup
      have hupdate : updateFavorites realm s.screens.services.table service.id
          = some (s.screens.services.table.write o.1 flipFavorites) := by
        unfold updateFavorites
        rw [hfirst]
        rfl
      refine ⟨vc, service, o, hvc, hservice, hfirst, ?_⟩
      simp only [Option.bind_eq_bind, Option.bind_some, hupdate] at haction
      obtain ⟨rfl, rfl⟩ := Prod.mk.inj (Option.some.inj haction)
      exact (Option.some.inj h).symm

/-- **The other steps** of an open screen leave the star, and the service as it is or deleted. -/
theorem step_other {s s' : StarScreens} {e : ServiceScreensEvent} {vc : DetailServiceVC}
    (hstored : s.Stored) (hvc : s'.screens.detail = some vc)
    (hne : e ≠ .favoritesAction) (hpresent : ∀ key, e ≠ .present key)
    (h : s.step realm isURL e = some s') :
    s.screens.detail = some vc ∧ (s'.star, s'.opened, s'.taps) = (s.star, s.opened, s.taps) ∧
      s.screens.services.table.next ≤ s'.screens.services.table.next ∧
      ∀ service, s'.screens.readService vc.service = some service →
        s.screens.readService vc.service = some service := by
  unfold step at h
  split_ifs at h with henabled
  -- the steps that leave the screen and the services as they are
  have key : s'.screens.detail = s.screens.detail → s'.screens.services = s.screens.services →
      (s'.star, s'.opened, s'.taps) = (s.star, s.opened, s.taps) →
      s.screens.detail = some vc ∧ (s'.star, s'.opened, s'.taps) = (s.star, s.opened, s.taps) ∧
        s.screens.services.table.next ≤ s'.screens.services.table.next ∧
        ∀ service, s'.screens.readService vc.service = some service →
          s.screens.readService vc.service = some service := by
    intro hdetail hservices hstar
    refine ⟨hdetail.symm.trans hvc, hstar, by rw [hservices], ?_⟩
    intro service hservice
    rwa [ServiceScreens.readService, hservices] at hservice
  cases e with
  | services e =>
      obtain ⟨screens, hscreens, rfl⟩ := Option.map_eq_some_iff.mp h
      obtain ⟨services, hservices, rfl⟩ := Option.map_eq_some_iff.mp hscreens
      refine ⟨hvc, rfl, SyncState.next_le_step hservices, ?_⟩
      exact fun service hservice => SyncState.read_of_step (hstored vc hvc) hservices hservice
  | masters e =>
      obtain ⟨screens, hscreens, rfl⟩ := Option.map_eq_some_iff.mp h
      obtain ⟨masters, -, rfl⟩ := Option.map_eq_some_iff.mp hscreens
      exact key rfl rfl rfl
  | present k => exact absurd rfl (hpresent k)
  | favoritesAction => exact absurd rfl hne
  | cellForItemAt row =>
      obtain ⟨screens, hscreens, rfl⟩ := Option.map_eq_some_iff.mp h
      obtain ⟨held, -, hscreens⟩ := Option.bind_eq_some_iff.mp hscreens
      obtain ⟨cell, -, rfl⟩ := Option.map_eq_some_iff.mp hscreens
      exact key rfl rfl rfl
  | actionPresentMakeApp =>
      obtain ⟨screens, hscreens, rfl⟩ := Option.map_eq_some_iff.mp h
      obtain ⟨held, -, hscreens⟩ := Option.bind_eq_some_iff.mp hscreens
      obtain ⟨shown, -, rfl⟩ := Option.map_eq_some_iff.mp hscreens
      exact key rfl rfl rfl
  | dismissAction =>
      obtain ⟨screens, hscreens, rfl⟩ := Option.map_eq_some_iff.mp h
      obtain rfl := Option.some.inj hscreens
      cases hvc
  | cellForRowAt row =>
      obtain ⟨screens, hscreens, rfl⟩ := Option.map_eq_some_iff.mp h
      obtain ⟨held, -, hscreens⟩ := Option.bind_eq_some_iff.mp hscreens
      obtain ⟨cell, -, rfl⟩ := Option.map_eq_some_iff.mp hscreens
      exact key rfl rfl rfl
  | makeAppointment form =>
      obtain ⟨screens, hscreens, rfl⟩ := Option.map_eq_some_iff.mp h
      obtain ⟨held, -, hscreens⟩ := Option.bind_eq_some_iff.mp hscreens
      obtain ⟨entry, -, rfl⟩ := Option.map_eq_some_iff.mp hscreens
      -- the screen is left if the fields are filled
      cases entry with
      | none => exact key rfl rfl rfl
      | some entry => exact key rfl rfl rfl
  | exitAction =>
      obtain ⟨screens, hscreens, rfl⟩ := Option.map_eq_some_iff.mp h
      obtain rfl := Option.some.inj hscreens
      exact key rfl rfl rfl

/-- The screen that is opened shows the flag of its service. -/
theorem step_present {s s' : StarScreens} {key : Nat}
    (h : s.step realm isURL (.present key) = some s') :
    ∃ masters service, s'.screens.detail = some ⟨key, masters⟩ ∧
      s'.screens.services = s.screens.services ∧ s.screens.readService key = some service ∧
      s'.star = service.favorites ∧ s'.opened = service.favorites ∧ s'.taps = 0 := by
  unfold step at h
  split_ifs at h
  obtain ⟨service, hservice, h⟩ := Option.bind_eq_some_iff.mp h
  obtain ⟨screens, hscreens, h⟩ := Option.bind_eq_some_iff.mp h
  obtain ⟨shown, hload, rfl⟩ := Option.map_eq_some_iff.mp hscreens
  obtain rfl := Option.some.inj h
  obtain ⟨masters, cell, hload', -⟩ := DetailServiceVC.viewDidLoad_eq_some
    (Option.isSome_iff_exists.mpr ⟨service, hservice⟩)
  obtain rfl := Option.some.inj (hload.symm.trans hload')
  exact ⟨masters, service, rfl, rfl, hservice, rfl, rfl, rfl⟩

/-! ## What the steps keep -/

theorem stored_step {s s' : StarScreens} {e : ServiceScreensEvent} (hi : s.Stored)
    (h : s.step realm isURL e = some s') : s'.Stored := by
  intro vc hvc
  by_cases hfavorites : e = .favoritesAction
  · subst hfavorites
    obtain ⟨vc', service, o, hvc', -, -, rfl⟩ := step_favoritesAction h
    exact hi vc hvc
  by_cases hpresent : ∃ key, e = .present key
  · obtain ⟨key, rfl⟩ := hpresent
    obtain ⟨masters, service, hdetail, hservices, hread, -⟩ := step_present h
    obtain rfl := Option.some.inj (hdetail.symm.trans hvc)
    obtain ⟨o, ho, hkey, -⟩ := Table.exists_of_read hread
    rw [hservices, ← hkey]
    exact s.screens.services.table.key_lt o ho
  · obtain ⟨hold, -, hnext, -⟩ := step_other hi hvc hfavorites (fun k hk => hpresent ⟨k, hk⟩) h
    exact lt_of_lt_of_le (hi vc hold) hnext

/-- **A tap** keeps the star right exactly if it selects what is shown. -/
theorem starFollows_favoritesAction {s s' : StarScreens} (hfollows : s.StarFollows)
    (h : s.step realm isURL .favoritesAction = some s') :
    s'.StarFollows ↔ s.FlipsShown realm .favoritesAction := by
  obtain ⟨vc, service, o, hvc, hservice, hfirst, rfl⟩ := step_favoritesAction h
  obtain ⟨-, hflag⟩ := hfollows vc hvc service hservice
  have hcond : s.FlipsShown realm .favoritesAction ↔ o.1 = vc.service := by
    simp only [FlipsShown, hvc, hservice, hfirst, Option.mem_def, Option.some.injEq, forall_eq',
      Option.join_some]
  have hread : (s.screens.services.table.write o.1 flipFavorites).read vc.service
      = some (if vc.service = o.1 then flipFavorites service else service) := by
    have hold : @Table.read Service s.screens.services.table vc.service = some service :=
      hservice
    refine (@Table.read_write Service _ vc.service o.1 flipFavorites).trans ?_
    rw [hold]
    split_ifs <;> rfl
  have hafter : StarFollows ⟨{ s.screens with services :=
        { s.screens.services with table := s.screens.services.table.write o.1 flipFavorites } },
        !o.2.favorites, s.opened, s.taps + 1⟩ ↔
      (!o.2.favorites) = (if vc.service = o.1 then flipFavorites service else service).favorites ∧
      (if vc.service = o.1 then flipFavorites service else service).favorites
        = !service.favorites := by
    have hnext : Nat.iterate not (s.taps + 1) s.opened = !service.favorites := by
      rw [Function.iterate_succ_apply', hflag]
    constructor
    · intro hshows
      rw [← hnext]
      exact hshows vc hvc _ hread
    · intro hboth vc' hvc' flipped hflipped
      obtain rfl := Option.some.inj (hvc.symm.trans hvc')
      obtain rfl := Option.some.inj (hread.symm.trans hflipped)
      rw [hnext]
      exact hboth
  rw [hcond, hafter]
  by_cases hsame : vc.service = o.1
  · -- the lookup has found the open service itself
    have ho : o ∈ s.screens.services.table.objects := FavoritesState.mem_of_firstFavorite hfirst
    have hfields : service = o.2 := by
      have hfound : s.screens.readService o.1 = some o.2 := Table.read_eq_some_iff.mpr ho
      rw [hsame] at hservice
      exact Option.some.inj (hservice.symm.trans hfound)
    rw [if_pos hsame, hfields, flipFavorites_eq]
    exact iff_of_true ⟨rfl, rfl⟩ hsame.symm
  · -- the flag of the open service is left, and the tap has been made
    rw [if_neg hsame]
    exact iff_of_false (fun hboth => Bool.self_ne_not _ hboth.2) (Ne.symm hsame)

/-- **One step** keeps the star right exactly if a tap flips what is shown. -/
theorem starFollows_step {s s' : StarScreens} {e : ServiceScreensEvent} (hi : s.Stored)
    (hfollows : s.StarFollows) (h : s.step realm isURL e = some s') :
    s'.StarFollows ↔ s.FlipsShown realm e := by
  by_cases hfavorites : e = .favoritesAction
  · subst hfavorites
    exact starFollows_favoritesAction hfollows h
  have hcond : s.FlipsShown realm e := by
    cases e with
    | favoritesAction => exact absurd rfl hfavorites
    | services _ | masters _ | present _ | cellForItemAt _ | actionPresentMakeApp | dismissAction
    | cellForRowAt _ | makeAppointment _ | exitAction => trivial
  refine iff_of_true ?_ hcond
  intro vc hvc service hservice
  by_cases hpresent : ∃ key, e = .present key
  · obtain ⟨key, rfl⟩ := hpresent
    obtain ⟨masters, service', hdetail, hservices, hread, hstar, hopened, htaps⟩ := step_present h
    obtain rfl := Option.some.inj (hdetail.symm.trans hvc)
    have hsame : s'.screens.readService key = some service' := by
      rw [ServiceScreens.readService, hservices]
      exact hread
    obtain rfl := Option.some.inj (hsame.symm.trans hservice)
    rw [hopened, htaps]
    exact ⟨hstar, rfl⟩
  · obtain ⟨hold, hsame, -, hread⟩ :=
      step_other hi hvc hfavorites (fun k hk => hpresent ⟨k, hk⟩) h
    obtain ⟨hstar, hrest⟩ := Prod.mk.inj hsame
    obtain ⟨hopened, htaps⟩ := Prod.mk.inj hrest
    rw [hstar, hopened, htaps]
    exact hfollows vc hold service (hread service hservice)

/-- A lookup that is read as a comparison of ids finds the open service, if no other one has its
id. -/
theorem flipsShown_of_nodup {s : StarScreens}
    (hreads : ∀ id, realm.servicePredicate (favoritesFormat id) = some (fun service => service.id == id))
    (e : ServiceScreensEvent) (hids : s.screens.services.ids.Nodup) : s.FlipsShown realm e := by
  cases e with
  | favoritesAction =>
      intro vc _ service hservice o ho
      have hfirst : firstFavorite realm s.screens.services.table.objects service.id = some (some o) :=
        Option.join_eq_some_iff.mp ho
      have hid : o.2.id = service.id := by
        unfold firstFavorite at hfirst
        rw [hreads, Option.map_some, Option.some.injEq] at hfirst
        exact beq_iff_eq.mp (List.mem_filter.mp (List.mem_of_mem_head? hfirst)).2
      obtain ⟨o', ho', hkey, rfl⟩ := Table.exists_of_read hservice
      have hmem := FavoritesState.mem_of_firstFavorite hfirst
      rw [← hkey, List.inj_on_of_nodup_map hids hmem ho' hid]
  | services _ | masters _ | present _ | cellForItemAt _ | actionPresentMakeApp | dismissAction
  | cellForRowAt _ | makeAppointment _ | exitAction => trivial

end StarScreens

/-! ## The runs -/

/-- **The star follows the taps** all along a run if and only if each tap flips what is shown,
whatever the passes do in the background while the screen is open. This is so when the lookup is read
as a comparison of ids and no two stored services have one id. -/
theorem starFollows_always_iff (realm : Realm) (isURL : String → Bool) (s s' : StarScreens)
    (h0 : (starScreens realm isURL).init s) (es : List ServiceScreensEvent)
    (h : (starScreens realm isURL).exec s es = some s') :
    ((starScreens realm isURL).Always StarScreens.StarFollows s es ↔
      (starScreens realm isURL).Each (StarScreens.FlipsShown realm) s es) ∧
    ((∀ id, realm.servicePredicate (favoritesFormat id) = some (fun service => service.id == id)) →
      (starScreens realm isURL).Always (fun s => s.screens.services.ids.Nodup) s es →
      (starScreens realm isURL).Always StarScreens.StarFollows s es) := by
  obtain ⟨hdetail, -⟩ := h0
  have hiff : (starScreens realm isURL).Always StarScreens.StarFollows s es ↔
      (starScreens realm isURL).Each (StarScreens.FlipsShown realm) s es := by
    refine EventMachine.always_iff_each StarScreens.Stored StarScreens.StarFollows
      (fun _ _ _ hi hs => StarScreens.stored_step hi hs)
      (fun _ _ _ hi hshows hs => StarScreens.starFollows_step hi hshows hs) es ?_ ?_ h
    · rw [StarScreens.Stored, hdetail]
      exact fun _ hvc => absurd hvc (Option.not_mem_none _)
    · rw [StarScreens.StarFollows, hdetail]
      exact fun _ hvc => absurd hvc (Option.not_mem_none _)
  refine ⟨hiff, fun hreads hnodup => hiff.mpr ?_⟩
  exact EventMachine.Always.each (P := fun s : StarScreens => s.screens.services.ids.Nodup)
    (fun _ e hids => StarScreens.flipsShown_of_nodup hreads e hids) hnodup

/-- The star is tapped while another service is fetched. -/
theorem starFollows_always_fetched :
    (starScreens idRealm (fun _ => true)).Always StarScreens.StarFollows
      ⟨oneMasterScreens, false, false, 0⟩
      [.present 0, .favoritesAction, .services (.snapshot [⟨"first", []⟩,
        ⟨"second", [("imageURL", .string "https://images/second")]⟩]),
        .services (.complete 0 (.bytes [1] true)), .favoritesAction] := by
  have hrun : ((starScreens idRealm (fun _ => true)).execWhere (StarScreens.FlipsShown idRealm)
      ⟨oneMasterScreens, false, false, 0⟩
      [.present 0, .favoritesAction, .services (.snapshot [⟨"first", []⟩,
        ⟨"second", [("imageURL", .string "https://images/second")]⟩]),
        .services (.complete 0 (.bytes [1] true)), .favoritesAction]).isSome = true := by decide
  obtain ⟨s, hs⟩ := Option.isSome_iff_exists.mp hrun
  obtain ⟨hexec, heach⟩ := (EventMachine.execWhere_eq_some_iff _).mp hs
  exact (starFollows_always_iff idRealm _ _ s ⟨rfl, rfl⟩ _ hexec).1.mpr heach

end Flamingo
