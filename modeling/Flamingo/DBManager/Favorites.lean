import Flamingo.Lib.Machine
import Flamingo.DBManager.Passes
import Flamingo.DBManager.Results

set_option autoImplicit false

/-! # Favourites

`updateFavorites` looks for a service with the predicate `id = '…'`, a text that the id is put into,
and flips the flag of the first one. A pass over the services never deletes, duplicates or rewrites
a service whose document is in the snapshot, so the flag of a service is what the calls make of it,
as long as the text is read as a comparison with the id that was put into it.
-/

namespace Flamingo

/-! ## The flag -/

/-- The format of the predicate. -/
def favoritesFormat (id : String) : String := "id = '" ++ id ++ "'"

/-- The service whose flag is flipped; a format that cannot be read raises an exception. -/
def firstFavorite (realm : Realm) (objects : Results Service) (id : String) :
    Option (Option (Nat × Service)) :=
  (realm.servicePredicate (favoritesFormat id)).map (fun p => (objects.filter p).head?)

def flipFavorites (service : Service) : Service :=
  if service.favorites then { service with favorites := false }
  else { service with favorites := true }

/-- `StorageManager.updateFavorites` -/
def updateFavorites (realm : Realm) (services : Table Service) (id : String) :
    Option (Table Service) := do
  let updateFavorites ← firstFavorite realm services.objects id
  match updateFavorites with
  | none => some services
  | some o => some (services.write o.1 flipFavorites)

theorem flipFavorites_eq (service : Service) :
    flipFavorites service = { service with favorites := !service.favorites } := by
  unfold flipFavorites
  cases hfavorites : service.favorites with
  | false => simp
  | true => simp

/-! ## The steps -/

structure FavoritesState where
  sync : SyncState serviceClass
  /-- how often `updateFavorites` has been called with the id that is watched -/
  calls : Nat

inductive FavoritesEvent
  | sync (e : SyncEvent)
  | updateFavorites (id : String)

namespace FavoritesState

def step (realm : Realm) (isURL : String → Bool) (d : String) (s : FavoritesState) :
    FavoritesEvent → Option FavoritesState
  | .sync e => (s.sync.step isURL e).map (fun sync => { s with sync })
  | .updateFavorites id => (updateFavorites realm s.sync.table id).map (fun table =>
      { s with
        sync := { s.sync with table }
        calls := if id = d then s.calls + 1 else s.calls })

/-- The stored services with the id. -/
def stored (d : String) (s : FavoritesState) : List (Nat × Service) := s.sync.withId d

/-- There is one service with the id, and it is the one there was, with its flag flipped once for
each call. -/
def Kept (d : String) (service : Service) (s : FavoritesState) : Prop :=
  (s.stored d).map Prod.snd = [{ service with favorites := Nat.iterate not s.calls service.favorites }]

/-- Every snapshot has the document of the id. -/
def HasDocument (d : String) : FavoritesEvent → Prop
  | .sync (.snapshot documents) => d ∈ documents.map (·.documentID)
  | _ => True

/-- The text of a call is read as a comparison with its id: of each stored service it says whether
this is the id. -/
def ComparesId (realm : Realm) (s : FavoritesState) : FavoritesEvent → Prop
  | .updateFavorites id => ∀ predicate ∈ realm.servicePredicate (favoritesFormat id),
      ∀ o ∈ s.sync.table.objects, predicate o.2 = (o.2.id == id)
  | _ => True

end FavoritesState

/-- A service with the id is stored, and no download of it is pending. -/
def favorites (realm : Realm) (isURL : String → Bool) (d : String) (service : Service) :
    EventMachine FavoritesState FavoritesEvent where
  init s := (s.stored d).map Prod.snd = [service] ∧ d ∉ s.sync.pendingIds ∧ s.calls = 0
  step := FavoritesState.step realm isURL d

namespace FavoritesState

variable {realm : Realm} {isURL : String → Bool} {d : String} {service : Service}

/-! ## The passes -/

/-- **A pass** neither touches the service nor starts a download of it. -/
theorem stored_sync {s s' : FavoritesState} {e : SyncEvent} (hone : s.stored d ≠ [])
    (hpending : d ∉ s.sync.pendingIds) (hdoc : HasDocument d (.sync e))
    (h : s.step realm isURL d (.sync e) = some s') :
    s'.stored d = s.stored d ∧ d ∉ s'.sync.pendingIds ∧ s'.calls = s.calls := by
  obtain ⟨sync, hsync, rfl⟩ := Option.map_eq_some_iff.mp h
  have hkept : sync.withId d = s.sync.withId d ∧ d ∉ sync.pendingIds := by
    cases e with
    | snapshot documents =>
        exact SyncState.withId_processSnapshot (fun _ _ => rfl) hdoc hone hpending hsync
    | snapshotError =>
        obtain rfl := Option.some.inj hsync
        exact ⟨rfl, hpending⟩
    | complete i download => exact SyncState.withId_complete hpending hsync
  exact ⟨hkept.1, hkept.2, rfl⟩

/-! ## The calls -/

theorem flipFavorites_id (service : Service) : (flipFavorites service).id = service.id := by
  rw [flipFavorites_eq]

/-- The service that is selected is a stored one. -/
theorem mem_of_firstFavorite {objects : Results Service} {id : String} {o : Nat × Service}
    (h : firstFavorite realm objects id = some (some o)) : o ∈ objects := by
  obtain ⟨p, -, hhead⟩ := Option.map_eq_some_iff.mp h
  exact List.mem_of_mem_filter (List.mem_of_mem_head? hhead)

/-- **A call** flips the service with the id if it is the one that is selected. -/
theorem updateFavorites_spec {services services' : Table Service} {id : String}
    {o : Nat × Service} (hone : services.objects.filter (fun x => x.2.id == d) = [o])
    (h : updateFavorites realm services id = some services') :
    ∃ selected, firstFavorite realm services.objects id = some selected ∧
      services'.objects.filter (fun x => x.2.id == d)
        = [if selected.map (fun o => o.2.id) = some d then (o.1, flipFavorites o.2) else o] := by
  obtain ⟨selected, hselected, htable⟩ := Option.bind_eq_some_iff.mp h
  refine ⟨selected, hselected, ?_⟩
  cases selected with
  | none =>
      obtain rfl := Option.some.inj htable
      rw [Option.map_none, if_neg (Option.some_ne_none d).symm]
      exact hone
  | some o' =>
      obtain rfl := Option.some.inj htable
      rw [Table.filter_write services o'.1 flipFavorites (fun x => x.id == d)
        (fun x => by rw [flipFavorites_id]), hone, List.map_singleton]
      -- two stored services with one key are one, and so are two with the id
      have hmem := List.mem_filter.mp (hone ▸ List.mem_singleton_self o)
      have hiff : o.1 = o'.1 ↔ (some o').map (fun o => o.2.id) = some d := by
        rw [Option.map_some, Option.some.injEq]
        constructor
        · intro hkey
          have hsame := List.inj_on_of_nodup_map services.nodup hmem.1
            (mem_of_firstFavorite hselected) hkey
          rw [← hsame]
          exact beq_iff_eq.mp hmem.2
        · intro hid
          have hlist : o' ∈ services.objects.filter (fun x => x.2.id == d) :=
            List.mem_filter.mpr ⟨mem_of_firstFavorite hselected, beq_iff_eq.mpr hid⟩
          rw [hone, List.mem_singleton] at hlist
          rw [hlist]
      by_cases hkey : o.1 = o'.1
      · rw [if_pos (beq_iff_eq.mpr hkey), if_pos (hiff.mp hkey)]
      · rw [if_neg (mt beq_iff_eq.mp hkey), if_neg (mt hiff.mpr hkey)]

theorem stored_updateFavorites {s s' : FavoritesState} {id : String} {o : Nat × Service}
    (hone : s.stored d = [o]) (h : s.step realm isURL d (.updateFavorites id) = some s') :
    s'.sync.pendingIds = s.sync.pendingIds ∧
    s'.calls = (if id = d then s.calls + 1 else s.calls) ∧
    ∃ selected, firstFavorite realm s.sync.table.objects id = some selected ∧
      s'.stored d = [if selected.map (fun o => o.2.id) = some d then (o.1, flipFavorites o.2)
        else o] := by
  obtain ⟨table, htable, rfl⟩ := Option.map_eq_some_iff.mp h
  exact ⟨rfl, rfl, updateFavorites_spec hone htable⟩

/-- A text that is read as a comparison of ids selects the service with the id, if it is meant. -/
theorem firstFavorite_of_comparesId {s : FavoritesState} {id : String} {o : Nat × Service}
    {selected : Option (Nat × Service)} (hone : s.stored d = [o])
    (hreads : s.ComparesId realm (.updateFavorites id))
    (h : firstFavorite realm s.sync.table.objects id = some selected) :
    selected.map (fun o => o.2.id) = some d ↔ id = d := by
  obtain ⟨predicate, hpredicate, hhead⟩ := Option.map_eq_some_iff.mp h
  obtain rfl : (s.stored id).head? = selected := by
    rw [← hhead]
    exact congrArg List.head?
      (List.filter_congr (fun o ho => (hreads predicate hpredicate o ho).symm))
  constructor
  · intro hpicked
    obtain ⟨o', ho', hid⟩ := Option.map_eq_some_iff.mp hpicked
    have hequal := (List.mem_filter.mp (List.mem_of_mem_head? ho')).2
    exact (beq_iff_eq.mp hequal).symm.trans hid
  · rintro rfl
    have hmem := List.mem_filter.mp (hone ▸ List.mem_singleton_self o)
    rw [hone, List.head?_cons, Option.map_some]
    exact congrArg some (beq_iff_eq.mp hmem.2)

/-- **A call** whose text is read as a comparison flips the flag exactly if it counts. -/
theorem kept_updateFavorites {s s' : FavoritesState} {id : String} (hkept : s.Kept d service)
    (hreads : s.ComparesId realm (.updateFavorites id))
    (h : s.step realm isURL d (.updateFavorites id) = some s') : s'.Kept d service := by
  obtain ⟨o, hone, ho⟩ := List.map_eq_singleton_iff.mp hkept
  obtain ⟨-, hcalls, selected, hselected, hstored⟩ := stored_updateFavorites hone h
  have hmeant := firstFavorite_of_comparesId hone hreads hselected
  have hflipped : flipFavorites o.2 = { service with
      favorites := !Nat.iterate not s.calls service.favorites } := by
    rw [flipFavorites_eq, ho]
  rw [Kept, hstored, List.map_singleton, List.singleton_inj, hcalls]
  by_cases hid : id = d
  · rw [if_pos (hmeant.mpr hid), if_pos hid, hflipped, Function.iterate_succ_apply']
  · rw [if_neg (mt hmeant.mp hid), if_neg hid, ho]

/-! ## The invariant -/

structure FavoritesInv (d : String) (service : Service) (s : FavoritesState) : Prop where
  kept : s.Kept d service
  pending : d ∉ s.sync.pendingIds

theorem stored_ne_nil {s : FavoritesState} (h : s.Kept d service) : s.stored d ≠ [] := by
  intro hnil
  rw [Kept, hnil] at h
  cases h

theorem favoritesInv_init {s : FavoritesState} (h : (favorites realm isURL d service).init s) :
    FavoritesInv d service s := by
  obtain ⟨hstored, hpending, hcalls⟩ := h
  refine ⟨?_, hpending⟩
  rw [Kept, hstored, hcalls]
  rfl

/-- **One step** keeps the service as it should be. -/
theorem favoritesInv_step {s s' : FavoritesState} {e : FavoritesEvent}
    (hi : FavoritesInv d service s) (hdoc : HasDocument d e) (hreads : s.ComparesId realm e)
    (h : s.step realm isURL d e = some s') : FavoritesInv d service s' := by
  cases e with
  | sync e =>
      obtain ⟨hstored, hpending, hcalls⟩ := stored_sync (stored_ne_nil hi.kept) hi.pending hdoc h
      refine ⟨?_, hpending⟩
      rw [Kept, hstored, hcalls]
      exact hi.kept
  | updateFavorites id =>
      obtain ⟨o, hone, -⟩ := List.map_eq_singleton_iff.mp hi.kept
      refine ⟨kept_updateFavorites hi.kept hreads h, ?_⟩
      rw [(stored_updateFavorites hone h).1]
      exact hi.pending

end FavoritesState

/-! ## The runs -/

/-- **Favourites survive** the passes, and a call flips the flag it is meant to, in the runs in which
the text of each call is read as a comparison with its id. -/
theorem favoritesKept_of_reach (realm : Realm) (isURL : String → Bool) (d : String)
    (service : Service) (s : FavoritesState)
    (h : (favorites realm isURL d service).Reach
      (fun s e => FavoritesState.HasDocument d e ∧ s.ComparesId realm e) s) : s.Kept d service := by
  have hi : FavoritesState.FavoritesInv d service s := by
    refine h.invariant (FavoritesState.FavoritesInv d service)
      (fun _ h0 => FavoritesState.favoritesInv_init h0) ?_
    intro s e s' hi hc hs
    exact FavoritesState.favoritesInv_step hi hc.1 hc.2 hs
  exact hi.kept

instance (d : String) (e : FavoritesEvent) : Decidable (FavoritesState.HasDocument d e) :=
  match e with
  | .sync (.snapshot documents) => inferInstanceAs (Decidable (d ∈ documents.map (·.documentID)))
  | .sync .snapshotError | .sync (.complete _ _) | .updateFavorites _ => .isTrue trivial

instance (realm : Realm) (s : FavoritesState) (e : FavoritesEvent) :
    Decidable (s.ComparesId realm e) :=
  match e with
  | .updateFavorites id => inferInstanceAs (Decidable (∀ predicate ∈
      realm.servicePredicate (favoritesFormat id), ∀ o ∈ s.sync.table.objects, _ = (_ == id)))
  | .sync _ => .isTrue trivial

/-- Comparisons of the id with a quoted text, and two of them joined by `OR`. -/
def idPredicate (format : String) : Option (Service → Bool) :=
  if format.toList.contains '\\' then none
  else match Text.components format '\'' with
    | [head, id, []] =>
        if head = "id = ".toList then some (fun service => service.id.toList == id) else none
    | [head, id, mid, id', []] =>
        if head = "id = ".toList ∧ mid = " OR id = ".toList then
          some (fun service => service.id.toList == id || service.id.toList == id')
        else none
    | _ => none

def idRealm : Realm := { plainRealm with servicePredicate := idPredicate }

/-- One service is stored. -/
def oneService : FavoritesState where
  sync := ⟨Table.empty.saveObjectRealm { id := "first", nameService := "manicure" }, [], none⟩
  calls := 0

theorem init_oneService (isURL : String → Bool) :
    (favorites idRealm isURL "first" { id := "first", nameService := "manicure" }).init oneService := by
  refine ⟨?_, ?_, rfl⟩
  · decide
  · decide

/-- Another service is fetched, and the flags of both are flipped. -/
theorem favoritesKept_flipped : ∃ s : FavoritesState,
    s.Kept "first" { id := "first", nameService := "manicure" } ∧
    s.sync.table.objects.map (fun o => (o.2.id, o.2.favorites))
      = [("first", true), ("second", true)] := by
  have hrun : ((favorites idRealm (fun _ => true) "first"
      { id := "first", nameService := "manicure" }).execWhere
        (fun s e => FavoritesState.HasDocument "first" e ∧ s.ComparesId idRealm e) oneService
        [.sync (.snapshot [⟨"first", []⟩, ⟨"second", [("imageURL", .string "https://second")]⟩]),
          .updateFavorites "first", .sync (.complete 0 (.bytes [2] true)),
          .updateFavorites "second"]).map
        (fun s => s.sync.table.objects.map (fun o => (o.2.id, o.2.favorites)))
      = some [("first", true), ("second", true)] := by decide
  obtain ⟨s, hs, hend⟩ := Option.map_eq_some_iff.mp hrun
  have hreach := EventMachine.reach_of_execWhere _ (init_oneService _) hs
  exact ⟨s, favoritesKept_of_reach _ _ _ _ s hreach, hend⟩

/-- **The id in the predicate.** A call for another id, one with quotation marks, flips the flag of
the service. -/
theorem not_favoritesKept : ¬ ∀ (realm : Realm) (isURL : String → Bool) (d : String)
    (service : Service) (s : FavoritesState),
    (favorites realm isURL d service).Reach (fun _ e => FavoritesState.HasDocument d e) s →
    s.Kept d service := by
  intro hall
  have hrun : ((favorites idRealm (fun _ => true) "first"
      { id := "first", nameService := "manicure" }).execWhere
        (fun _ e => FavoritesState.HasDocument "first" e) oneService
        [.updateFavorites "x' OR id = 'first"]).map
        (fun s => ((s.stored "first").map (fun o => o.2.favorites), s.calls))
      = some ([true], 0) := by decide
  obtain ⟨s, hs, hend⟩ := Option.map_eq_some_iff.mp hrun
  obtain ⟨hfavorites, hcalls⟩ := Prod.mk.inj hend
  have hreach := EventMachine.reach_of_execWhere _ (init_oneService _) hs
  have hkept := hall _ _ _ _ s hreach
  rw [FavoritesState.Kept, hcalls] at hkept
  obtain ⟨o, hone, ho⟩ := List.map_eq_singleton_iff.mp hkept
  rw [hone, List.map_singleton, ho] at hfavorites
  exact absurd hfavorites (by decide)

end Flamingo
