import Mathlib.Data.List.TakeWhile
import Flamingo.DBManager.Passes
import Flamingo.DBManager.FirebaseManager
import Flamingo.Lists.ListVC

set_option autoImplicit false

/-! # Confirmed deletions

Between the swipe and the confirmation the alert holds an index and nothing else. The object at the
index of the results is at the place that its rank among the listed objects gives it. So the
confirmation deletes the record that was swiped as long as the row displayed the record at its index
at the swipe, and until the confirmation the object stays and as many listed objects come before it.
-/

namespace Flamingo

namespace ListVC

variable {c : RealmClass} {vc : ListVC c} {isURL isStorageURL : String → Bool}

/-! ## The property and its condition -/

/-- Confirming the open alert deletes the document and an object of the record that the row
displayed when it was swiped. -/
def ConfirmHits (vc : ListVC c) (isStorageURL : String → Bool) (s : ListState c) : Prop :=
  ∀ a ∈ s.alert, ∃ document s', vc.delete isStorageURL s a.1 = some (document, some s') ∧
    document.collection = c.collection ∧ document.id = c.id a.2.2 ∧
    ∃ object ∈ s.sync.table.objects, c.id object.2 = c.id a.2.2 ∧
      s'.sync.table = s.sync.table.deleteObjectRealm object.1

/-- The object at an index of the results. -/
def objectAt (vc : ListVC c) (s : ListState c) (row : Nat) : Option (Nat × c.Object) := do
  let results ← vc.results s
  results[row]?

/-- The image of an object, if it has one, is in the Storage. -/
def ImageStored (vc : ListVC c) (isStorageURL : String → Bool) (object : c.Object) : Prop :=
  vc.imageURL object = "" ∨ isStorageURL (vc.imageURL object) = true

/-- How many listed objects come before one of them in the results. -/
def rank (vc : ListVC c) (refilled : Bool) (objects : Results c.Object) (y : Nat × c.Object) : Nat :=
  StableSort.rank (vc.order refilled) y
    (Results.filter (objects.takeWhile (fun o => o.1 != y.1)) vc.listed)
    (Results.filter (objects.dropWhile (fun o => o.1 != y.1)).tail vc.listed)

/-- Of two listed objects the one does not come before the other because of its place only. -/
def Apart (vc : ListVC c) (refilled : Bool) (a b : Nat × c.Object) : Prop :=
  vc.listed a.2 = true → vc.listed b.2 = true →
    ¬ (vc.order refilled a b = true ∧ vc.order refilled b a = true)

/-- A pass deletes no object that is listed up to the row, and a download adds none before the one
in the row. -/
def SparesRow (vc : ListVC c) (s : ListState c) (row : Nat) : SyncEvent → Prop
  | .snapshot documents => ∀ results ∈ vc.results s, ∀ o ∈ results.take (row + 1),
      s.sync.Spares o.1 (.snapshot documents)
  | .complete i (.bytes data true) => ∀ d ∈ s.sync.pending[i]?, ∀ y ∈ vc.objectAt s row,
      vc.listed (c.init d.documentID d.data data) = true →
        vc.order s.refilled y (s.sync.table.next, c.init d.documentID d.data data) = true
  | _ => True

/-- Realm moves no object past the one in the row that has the same rank. -/
def MovesNone (vc : ListVC c) (s : ListState c) (row i : Nat) : Prop :=
  ∀ y ∈ vc.objectAt s row, ∀ last ∈ s.sync.table.objects.getLast?,
    (y.1 = last.1 → ∀ o ∈ s.sync.table.objects.dropLast.drop i, vc.Apart s.refilled o y) ∧
    ((∃ o ∈ s.sync.table.objects.dropLast.drop i, o.1 = y.1) → vc.Apart s.refilled last y)

/-- A row that is swiped displays the record at its index, whose image is in the Storage. While an
alert is open, the object in the row stays, and what comes before it is as much as it was. -/
def Undisturbed (vc : ListVC c) (isStorageURL : String → Bool) (s : ListState c) : ListEvent → Prop
  | .swipe row => ∀ shown ∈ s.shown row, ∃ o ∈ vc.objectAt s row,
      c.id o.2 = c.id shown.2 ∧ vc.ImageStored isStorageURL o.2
  | .sync e => ∀ a ∈ s.alert, vc.SparesRow s a.1 e
  | .moveLastTo i => ∀ a ∈ s.alert, vc.MovesNone s a.1 i
  | .refreshed => ∀ a ∈ s.alert, ∀ y ∈ vc.objectAt s a.1,
      vc.rank true s.sync.table.objects y = vc.rank s.refilled s.sync.table.objects y
  | _ => True

/-! ## The place of an object -/

/-- The results, if the predicate of the list can be read. -/
def listing (vc : ListVC c) (refilled : Bool) (objects : Results c.Object) : Results c.Object :=
  StableSort.sort (vc.order refilled) (objects.filter vc.listed)

/-- If there are results, then there are whatever the objects are. -/
theorem results_eq_listing {s : ListState c} {results : Results c.Object}
    (h : vc.results s = some results) (s' : ListState c) :
    vc.results s' = some (vc.listing s'.refilled s'.sync.table.objects) := by
  unfold ListVC.results at h ⊢
  rcases vc.results_eq with hnone | hsome
  · obtain ⟨hload, hrefill⟩ := hnone s.sync.table.objects
    rw [hload, hrefill, ite_self] at h
    cases h
  · obtain ⟨hload, hrefill⟩ := hsome s'.sync.table.objects
    rw [hload, hrefill]
    cases s'.refilled <;> rfl

theorem objectAt_eq_some {s : ListState c} {row : Nat} {y : Nat × c.Object}
    (h : vc.objectAt s row = some y) :
    vc.results s = some (vc.listing s.refilled s.sync.table.objects) ∧
      (vc.listing s.refilled s.sync.table.objects)[row]? = some y := by
  obtain ⟨results, hresults, hy⟩ := Option.bind_eq_some_iff.mp h
  have hlisting := results_eq_listing hresults s
  obtain rfl := Option.some.inj (hresults.symm.trans hlisting)
  exact ⟨hlisting, hy⟩

/-- The index of an object in later results. -/
theorem objectAt_eq_listing {s : ListState c} {row : Nat} {y : Nat × c.Object}
    (h : vc.objectAt s row = some y) (s' : ListState c) (row' : Nat) :
    vc.objectAt s' row' = (vc.listing s'.refilled s'.sync.table.objects)[row']? := by
  rw [objectAt, results_eq_listing (objectAt_eq_some h).1 s']
  rfl

theorem mem_listing {refilled : Bool} {objects : Results c.Object} {y : Nat × c.Object} :
    y ∈ vc.listing refilled objects ↔ y ∈ objects ∧ vc.listed y.2 = true := by
  rw [listing, (StableSort.sort_perm _ _).mem_iff, Results.filter, List.mem_filter]

theorem listing_nodup (refilled : Bool) (t : Table c.Object) :
    (vc.listing refilled t.objects).Nodup := by
  have hobjects : t.objects.Nodup := List.Nodup.of_map _ t.nodup
  exact (StableSort.sort_perm _ _).symm.nodup (hobjects.filter _)

/-- **An object has the place of its rank.** -/
theorem getElem?_listing {y : Nat × c.Object} (hlisted : vc.listed y.2 = true) (refilled : Bool)
    (before after : List (Nat × c.Object)) :
    (vc.listing refilled (before ++ y :: after))[StableSort.rank (vc.order refilled) y
      (Results.filter before vc.listed) (Results.filter after vc.listed)]? = some y := by
  have hfilter : Results.filter (before ++ y :: after) vc.listed
      = Results.filter before vc.listed ++ y :: Results.filter after vc.listed := by
    rw [Results.filter, List.filter_append, List.filter_cons, hlisted, if_pos rfl]
    rfl
  rw [listing, hfilter]
  exact StableSort.getElem?_sort (vc.order_trans refilled) (vc.order_total refilled) y _ _

/-- The index of an object in the results is its rank. -/
theorem row_eq_rank {s : ListState c} {row : Nat} {y : Nat × c.Object}
    (h : vc.objectAt s row = some y) {before after : List (Nat × c.Object)}
    (hobjects : s.sync.table.objects = before ++ y :: after) :
    row = StableSort.rank (vc.order s.refilled) y (Results.filter before vc.listed)
      (Results.filter after vc.listed) := by
  have hy := (objectAt_eq_some h).2
  have hlisted := (mem_listing.mp (List.mem_of_getElem? hy)).2
  have hrank := getElem?_listing hlisted s.refilled before after
  rw [← hobjects] at hrank
  exact (List.getElem?_inj (List.getElem?_eq_some_iff.mp hy).1 (listing_nodup s.refilled _)).mp
    (hy.trans hrank.symm)

/-- **An object whose rank is the same** is found at the same index. -/
theorem objectAt_of_rank {s s' : ListState c} {row : Nat} {y : Nat × c.Object}
    (h : vc.objectAt s row = some y) {before after before' after' : List (Nat × c.Object)}
    (hobjects : s.sync.table.objects = before ++ y :: after)
    (hobjects' : s'.sync.table.objects = before' ++ y :: after')
    (hrank : StableSort.rank (vc.order s'.refilled) y (Results.filter before' vc.listed)
        (Results.filter after' vc.listed)
      = StableSort.rank (vc.order s.refilled) y (Results.filter before vc.listed)
        (Results.filter after vc.listed)) :
    vc.objectAt s' row = some y := by
  have hlisted := (mem_listing.mp (List.mem_of_getElem? (objectAt_eq_some h).2)).2
  rw [objectAt_eq_listing h s', hobjects', row_eq_rank h hobjects, ← hrank]
  exact getElem?_listing hlisted s'.refilled before' after'

/-! ## The steps under an open alert -/

section Steps

variable {s s' : ListState c} {row : Nat} {y : Nat × c.Object}

/-- A pass that spares what is listed up to the row. -/
theorem objectAt_snapshot {documents : List Document} (h : vc.objectAt s row = some y)
    (hspares : vc.SparesRow s row (.snapshot documents)) {sync : SyncState c}
    (hsync : s.sync.processSnapshot isURL documents = some sync) :
    vc.objectAt { s with sync } row = some y := by
  obtain ⟨hresults, hy⟩ := objectAt_eq_some h
  let kept : Nat × c.Object → Bool := fun o =>
    !documents.any (fun d => SyncState.replaced d o) &&
      (documents.map (·.documentID)).contains (c.id o.2)
  have hobjects : sync.table.objects = s.sync.table.objects.filter kept := by
    rw [SyncState.objects_processSnapshot hsync, SyncState.leftBy, List.filter_filter]
    exact List.filter_congr fun o _ => Bool.and_comm _ _
  -- a filter of the objects is a filter of the results
  have hlisting : vc.listing s.refilled sync.table.objects
      = List.filter kept (vc.listing s.refilled s.sync.table.objects) := by
    rw [hobjects, listing, listing,
      StableSort.filter_sort (vc.order_trans s.refilled) (vc.order_total s.refilled)]
    congr 1
    rw [Results.filter, Results.filter, List.filter_filter, List.filter_filter]
    exact List.filter_congr fun o _ => Bool.and_comm _ _
  rw [objectAt_eq_listing h { s with sync }]
  show (vc.listing s.refilled sync.table.objects)[row]? = some y
  rw [hlisting, Filtered.getElem?_filter_of_take _ _ ?_, hy]
  intro o ho
  have hmem := (mem_listing.mp (List.mem_of_mem_take ho)).1
  obtain ⟨hdocument, hsame⟩ := hspares _ hresults o ho o hmem rfl
  rw [Bool.and_eq_true, Bool.not_eq_true', List.any_eq_false, List.contains_iff_mem]
  refine ⟨fun d hd => ?_, hdocument⟩
  rw [hsame d hd]
  exact Bool.false_ne_true

/-- A download whose object does not come before the one in the row. -/
theorem objectAt_complete {i : Nat} {download : Download} (h : vc.objectAt s row = some y)
    (hspares : vc.SparesRow s row (.complete i download)) {sync : SyncState c}
    (hsync : s.sync.complete i download = some sync) : vc.objectAt { s with sync } row = some y := by
  obtain ⟨d, hd, -, -, hcase⟩ := SyncState.complete_eq_some hsync
  obtain ⟨before, after, hobjects⟩ := List.append_of_mem
    (mem_listing.mp (List.mem_of_getElem? (objectAt_eq_some h).2)).1
  rcases hcase with ⟨data, rfl, htable⟩ | ⟨-, htable⟩
  · let new : Nat × c.Object := (s.sync.table.next, c.init d.documentID d.data data)
    have hobjects' : sync.table.objects = before ++ y :: (after ++ [new]) := by
      rw [htable]
      show s.sync.table.objects ++ [new] = _
      rw [hobjects, List.append_assoc, List.cons_append]
    refine objectAt_of_rank h hobjects hobjects' ?_
    have hnew : (Results.filter [new] vc.listed).countP (fun o => !vc.order s.refilled y o) = 0 := by
      rw [List.countP_eq_zero]
      intro o ho
      obtain ⟨hmem, hlisted⟩ := List.mem_filter.mp ho
      obtain rfl := List.mem_singleton.mp hmem
      rw [hspares d hd y h hlisted]
      exact Bool.false_ne_true
    rw [StableSort.rank, Results.filter_append, List.countP_append, hnew, Nat.add_zero, StableSort.rank]
  · refine objectAt_of_rank h hobjects ?_ rfl
    show sync.table.objects = _
    rw [htable, hobjects]

/-- Of two objects that are apart the one comes first exactly if the other does not. -/
theorem Apart.eq_not {refilled : Bool} {o y : Nat × c.Object} (h : vc.Apart refilled o y)
    (ho : vc.listed o.2 = true) (hy : vc.listed y.2 = true) :
    vc.order refilled o y = !vc.order refilled y o := by
  have htotal := vc.order_total refilled o y
  have hapart := h ho hy
  cases hoy : vc.order refilled o y with
  | true =>
      rw [hoy] at hapart
      cases hyo : vc.order refilled y o with
      | true => exact absurd ⟨rfl, hyo⟩ hapart
      | false => rfl
  | false =>
      rw [hoy, or_iff_right Bool.false_ne_true] at htotal
      rw [htotal, Bool.not_true]

theorem Apart.forall_eq_not {refilled : Bool} {moved : Results c.Object} {y : Nat × c.Object}
    (hy : vc.listed y.2 = true) (h : ∀ o ∈ moved, vc.Apart refilled o y) :
    ∀ o ∈ Results.filter moved vc.listed, vc.order refilled o y = !vc.order refilled y o := by
  intro o ho
  obtain ⟨hmem, hlisted⟩ := List.mem_filter.mp ho
  exact (h o hmem).eq_not hlisted hy

/-- Objects that are apart from `y` may all stand before it. -/
theorem rank_moved {refilled : Bool} {y : Nat × c.Object} {moved : Results c.Object}
    (hy : vc.listed y.2 = true) (h : ∀ o ∈ moved, vc.Apart refilled o y) (before : Results c.Object) :
    StableSort.rank (vc.order refilled) y (Results.filter before vc.listed)
        (Results.filter moved vc.listed)
      = StableSort.rank (vc.order refilled) y (Results.filter (before ++ moved) vc.listed) [] := by
  have hmove := StableSort.rank_move (Apart.forall_eq_not hy h) (Results.filter before vc.listed) []
  rw [List.append_nil] at hmove
  rw [Results.filter_append, hmove]

/-- An object that is apart from `y` may go from before it to the end. -/
theorem rank_passed {refilled : Bool} {y o : Nat × c.Object} (hy : vc.listed y.2 = true)
    (h : vc.Apart refilled o y) (l before after : Results c.Object) :
    StableSort.rank (vc.order refilled) y (Results.filter (l ++ o :: before) vc.listed)
        (Results.filter after vc.listed)
      = StableSort.rank (vc.order refilled) y (Results.filter (l ++ before) vc.listed)
        (Results.filter (after ++ [o]) vc.listed) := by
  have hapart : ∀ a ∈ Results.filter [o] vc.listed, vc.order refilled a y = !vc.order refilled y a :=
    Apart.forall_eq_not hy (fun a ha => List.mem_singleton.mp ha ▸ h)
  have hlast : (l ++ o :: before).Perm ((l ++ before) ++ [o]) :=
    List.perm_middle.trans (List.perm_append_singleton o (l ++ before)).symm
  calc StableSort.rank (vc.order refilled) y (Results.filter (l ++ o :: before) vc.listed)
        (Results.filter after vc.listed)
      = StableSort.rank (vc.order refilled) y
          (Results.filter (l ++ before) vc.listed ++ Results.filter [o] vc.listed)
          (Results.filter after vc.listed) := by
        refine StableSort.rank_perm ?_ (List.Perm.refl _)
        rw [← Results.filter_append]
        exact hlast.filter _
    _ = StableSort.rank (vc.order refilled) y (Results.filter (l ++ before) vc.listed)
          (Results.filter [o] vc.listed ++ Results.filter after vc.listed) :=
        StableSort.rank_move hapart _ _
    _ = StableSort.rank (vc.order refilled) y (Results.filter (l ++ before) vc.listed)
          (Results.filter (after ++ [o]) vc.listed) := by
        refine StableSort.rank_perm (List.Perm.refl _) ?_
        rw [Results.filter_append after]
        exact List.perm_append_comm

/-- Realm moves its last object, and no object of the same rank passes the one in the row. -/
theorem objectAt_moveLastTo {i : Nat} (h : vc.objectAt s row = some y) (hmoves : vc.MovesNone s row i) :
    vc.objectAt { s with sync := { s.sync with table := s.sync.table.moveLastTo i } } row
      = some y := by
  obtain ⟨hmem, hlisted⟩ := mem_listing.mp (List.mem_of_getElem? (objectAt_eq_some h).2)
  obtain ⟨l, last, hobjects⟩ : ∃ l last, s.sync.table.objects = l ++ [last] :=
    ⟨_, _, (List.dropLast_append_getLast (List.ne_nil_of_mem hmem)).symm⟩
  obtain ⟨hself, hpassed⟩ := hmoves y h last (by rw [hobjects, List.getLast?_concat]; rfl)
  rw [hobjects, List.dropLast_concat] at hself hpassed
  have hmoved := Table.objects_moveLastTo hobjects i
  have hparts : l = l.take i ++ l.drop i := (List.take_append_drop i l).symm
  rw [hobjects, List.mem_append, List.mem_singleton] at hmem
  rcases hmem with hl | rfl
  · rw [hparts, List.mem_append] at hl
    rcases hl with hl | hl
    · -- the object stays, and what follows it is rearranged
      obtain ⟨before, after, hsplit⟩ := List.append_of_mem hl
      have hbefore : s.sync.table.objects = before ++ y :: (after ++ (l.drop i ++ [last])) := by
        rw [hobjects]
        nth_rewrite 1 [hparts]
        rw [hsplit, List.append_assoc, List.append_assoc, List.cons_append]
      have hafter : (s.sync.table.moveLastTo i).objects
          = before ++ y :: (after ++ last :: l.drop i) := by
        rw [hmoved, hsplit, List.append_assoc, List.cons_append]
      refine objectAt_of_rank h hbefore hafter (StableSort.rank_perm (List.Perm.refl _) ?_)
      refine (List.Perm.append_left after ?_).filter _
      exact (List.perm_append_singleton last (l.drop i)).symm
    · -- the last object comes to stand before it
      obtain ⟨before, after, hsplit⟩ := List.append_of_mem hl
      have hbefore : s.sync.table.objects = (l.take i ++ before) ++ y :: (after ++ [last]) := by
        rw [hobjects]
        nth_rewrite 1 [hparts]
        rw [hsplit, List.append_assoc, List.append_assoc, List.append_assoc, List.cons_append]
      have hafter : (s.sync.table.moveLastTo i).objects
          = (l.take i ++ last :: before) ++ y :: after := by
        rw [hmoved, hsplit, List.append_assoc, List.cons_append]
      exact objectAt_of_rank h hbefore hafter (rank_passed hlisted (hpassed ⟨y, hl, rfl⟩) _ _ _)
  · -- the object itself is moved
    refine objectAt_of_rank h hobjects hmoved ?_
    rw [rank_moved hlisted (hself rfl), ← hparts]
    rfl

/-- The objects from one of them on. -/
theorem dropWhile_key {t : Table c.Object} (hy : y ∈ t.objects) :
    t.objects.dropWhile (fun o => o.1 != y.1)
      = y :: (t.objects.dropWhile (fun o => o.1 != y.1)).tail := by
  cases hdrop : t.objects.dropWhile (fun o => o.1 != y.1) with
  | nil =>
      have hall := List.dropWhile_eq_nil_iff.mp hdrop y hy
      rw [bne_self_eq_false] at hall
      cases hall
  | cons z rest =>
      have hhead := List.head_dropWhile_not (fun o : Nat × c.Object => o.1 != y.1) (l := t.objects)
        (by rw [hdrop]; exact List.cons_ne_nil _ _)
      have hz : z ∈ t.objects :=
        (List.dropWhile_sublist _).subset (by rw [hdrop]; exact List.mem_cons_self)
      simp only [hdrop, List.head_cons, bne_eq_false_iff_eq] at hhead
      rw [List.inj_on_of_nodup_map t.nodup hz hy hhead, List.tail_cons]

/-- A refresh under which as many objects come before the one in the row. -/
theorem objectAt_refreshed (h : vc.objectAt s row = some y)
    (hrank : vc.rank true s.sync.table.objects y = vc.rank s.refilled s.sync.table.objects y)
    {refreshing : Nat} {shown : Nat → Option (Nat × c.Object)} :
    vc.objectAt { s with refreshing, refilled := true, shown } row = some y := by
  have hmem := (mem_listing.mp (List.mem_of_getElem? (objectAt_eq_some h).2)).1
  have hsplit : s.sync.table.objects = s.sync.table.objects.takeWhile (fun o => o.1 != y.1)
      ++ y :: (s.sync.table.objects.dropWhile (fun o => o.1 != y.1)).tail := by
    rw [← dropWhile_key hmem, List.takeWhile_append_dropWhile]
  exact objectAt_of_rank h hsplit hsplit hrank

end Steps

/-! ## The invariant -/

/-- The object at the index of the open alert is of the record that was swiped, and its image is in
the Storage. -/
def AlertFresh (vc : ListVC c) (isStorageURL : String → Bool) (s : ListState c) : Prop :=
  ∀ a ∈ s.alert, ∃ y ∈ vc.objectAt s a.1, c.id y.2 = c.id a.2.2 ∧ vc.ImageStored isStorageURL y.2

/-- Closing the alert leaves nothing to hit. -/
theorem fresh_of_closed {s : ListState c} (h : s.alert = none) : vc.AlertFresh isStorageURL s := by
  intro a ha
  rw [h] at ha
  cases ha

/-- A step under an open alert keeps the object at its index. -/
theorem AlertFresh.keep {s s' : ListState c} (hi : vc.AlertFresh isStorageURL s)
    (halert : s'.alert = s.alert)
    (hkeep : ∀ a ∈ s.alert, ∀ y ∈ vc.objectAt s a.1, vc.objectAt s' a.1 = some y) :
    vc.AlertFresh isStorageURL s' := by
  intro a ha
  rw [halert] at ha
  obtain ⟨y, hy, hid, himage⟩ := hi a ha
  exact ⟨y, hkeep a ha y hy, hid, himage⟩

/-- **The deletion hits** when the index of the alert is fresh. -/
theorem confirmHits_of_fresh {s : ListState c} (hi : vc.AlertFresh isStorageURL s) :
    vc.ConfirmHits isStorageURL s := by
  intro a ha
  obtain ⟨y, hy, hid, himage⟩ := hi a ha
  obtain ⟨hresults, hrow⟩ := objectAt_eq_some hy
  have hreturns : (DeleteDocument.mk (c.id y.2) (vc.imageURL y.2) c.collection vc.child).returns
      isStorageURL = true := by
    rw [DeleteDocument.returns, Bool.or_eq_true, Bool.or_eq_true, beq_iff_eq]
    exact himage.imp_left Or.inl
  have hdelete : vc.delete isStorageURL s a.1 = some (⟨c.id y.2, vc.imageURL y.2, c.collection,
      vc.child⟩, some (deleteObject s y)) := by
    simp only [delete, hresults, hrow, Option.bind_eq_bind, Option.bind_some, if_pos hreturns]
  exact ⟨_, _, hdelete, rfl, hid, y, (mem_listing.mp (List.mem_of_getElem? hrow)).1, hid, rfl⟩

/-- **One step** that meets the condition keeps the alert fresh. -/
theorem fresh_step {s s' : ListState c} {e : ListEvent} (hi : vc.AlertFresh isStorageURL s)
    (hc : vc.Undisturbed isStorageURL s e) (h : vc.step isURL isStorageURL s e = some s') :
    vc.AlertFresh isStorageURL s' := by
  cases e with
  | sync e =>
      obtain ⟨sync, hsync, rfl⟩ := Option.map_eq_some_iff.mp h
      refine hi.keep rfl fun a ha y hy => ?_
      cases e with
      | snapshot documents => exact objectAt_snapshot hy (hc a ha) hsync
      | snapshotError =>
          obtain rfl := Option.some.inj hsync
          exact hy
      | complete i download => exact objectAt_complete hy (hc a ha) hsync
  | moveLastTo i =>
      obtain rfl := Option.some.inj h
      exact hi.keep rfl fun a ha y hy => objectAt_moveLastTo hy (hc a ha)
  | cellForRowAt row =>
      simp only [step, draw, Option.bind_eq_bind] at h
      obtain ⟨results, -, h⟩ := Option.bind_eq_some_iff.mp h
      obtain ⟨object, -, h⟩ := Option.bind_eq_some_iff.mp h
      obtain ⟨cell, -, h⟩ := Option.bind_eq_some_iff.mp h
      obtain rfl := Option.some.inj h
      exact hi.keep rfl fun a ha y hy => hy
  | refresh =>
      simp only [step] at h
      split_ifs at h
      obtain rfl := Option.some.inj h
      exact hi.keep rfl fun a ha y hy => hy
  | refreshed =>
      simp only [step] at h
      split_ifs at h
      obtain rfl := Option.some.inj h
      exact hi.keep rfl fun a ha y hy => objectAt_refreshed hy (hc a ha y hy)
  | reloadData =>
      obtain rfl := Option.some.inj h
      exact hi.keep rfl fun a ha y hy => hy
  | swipe row =>
      -- the new alert holds the row, and the record it was drawn with
      simp only [step] at h
      split_ifs at h with hnone
      obtain ⟨shown, hshown, rfl⟩ := Option.map_eq_some_iff.mp h
      intro a ha
      obtain rfl := Option.some.inj ha
      exact hc shown hshown
  | cancel =>
      obtain rfl := Option.some.inj h
      exact fresh_of_closed rfl
  | confirm =>
      obtain ⟨a, -, h⟩ := Option.bind_eq_some_iff.mp h
      obtain ⟨⟨document, t⟩, hdelete, rfl⟩ := Option.bind_eq_some_iff.mp h
      simp only [delete, Option.bind_eq_bind] at hdelete
      obtain ⟨results, -, hdelete⟩ := Option.bind_eq_some_iff.mp hdelete
      obtain ⟨object, -, hdelete⟩ := Option.bind_eq_some_iff.mp hdelete
      obtain ⟨-, hreturns⟩ := Prod.mk.inj (Option.some.inj hdelete)
      split_ifs at hreturns
      obtain rfl := Option.some.inj hreturns
      exact fresh_of_closed rfl

/-- In every run that meets the condition the open alert is fresh. -/
theorem fresh_reach {s : ListState c}
    (h : (vc.runs isURL isStorageURL).Reach (vc.Undisturbed isStorageURL) s) :
    vc.AlertFresh isStorageURL s := by
  refine h.invariant (vc.AlertFresh isStorageURL) ?_ ?_
  · rintro s ⟨-, -, -, -, hclosed⟩
    exact fresh_of_closed hclosed
  · intro s e s' hi hc hs
    exact fresh_step hi hc hs

end ListVC

/-! ## The runs -/

/-- **Confirmed deletions hit the swiped record** in the runs in which rows are swiped that display
the record at their index, and until the confirmation no pass deletes an object that is listed up to
it, no download adds one before it, and nothing changes the order before it. -/
theorem confirmHits_of_reach (realm : Realm) (screen : Screen) (isURL isStorageURL : String → Bool)
    (s : ListState screen.realmClass)
    (h : ((screen.listVC realm).runs isURL isStorageURL).Reach
      ((screen.listVC realm).Undisturbed isStorageURL) s) :
    (screen.listVC realm).ConfirmHits isStorageURL s :=
  ListVC.confirmHits_of_fresh (ListVC.fresh_reach h)

section Decidable

variable {c : RealmClass} (vc : ListVC c) (isStorageURL : String → Bool) (s : ListState c)

instance (object : c.Object) : Decidable (vc.ImageStored isStorageURL object) :=
  inferInstanceAs (Decidable (_ ∨ _))

instance (refilled : Bool) (a b : Nat × c.Object) : Decidable (vc.Apart refilled a b) :=
  inferInstanceAs (Decidable (_ → _ → ¬ _))

instance (row : Nat) (e : SyncEvent) : Decidable (vc.SparesRow s row e) :=
  match e with
  | .snapshot documents => inferInstanceAs (Decidable (∀ results ∈ vc.results s,
      ∀ o ∈ results.take (row + 1), s.sync.Spares o.1 (.snapshot documents)))
  | .complete i (.bytes data true) => inferInstanceAs (Decidable (∀ d ∈ s.sync.pending[i]?,
      ∀ y ∈ vc.objectAt s row, vc.listed (c.init d.documentID d.data data) = true →
        vc.order s.refilled y (s.sync.table.next, c.init d.documentID d.data data) = true))
  | .complete _ (.bytes _ false) | .complete _ .failed | .snapshotError => .isTrue trivial

instance (row i : Nat) : Decidable (vc.MovesNone s row i) :=
  inferInstanceAs (Decidable (∀ y ∈ vc.objectAt s row, ∀ last ∈ s.sync.table.objects.getLast?,
    (y.1 = last.1 → ∀ o ∈ s.sync.table.objects.dropLast.drop i, vc.Apart s.refilled o y) ∧
    ((∃ o ∈ s.sync.table.objects.dropLast.drop i, o.1 = y.1) → vc.Apart s.refilled last y)))

instance (e : ListEvent) : Decidable (vc.Undisturbed isStorageURL s e) :=
  match e with
  | .swipe row => inferInstanceAs (Decidable (∀ shown ∈ s.shown row, ∃ o ∈ vc.objectAt s row,
      c.id o.2 = c.id shown.2 ∧ vc.ImageStored isStorageURL o.2))
  | .sync e => inferInstanceAs (Decidable (∀ a ∈ s.alert, vc.SparesRow s a.1 e))
  | .moveLastTo i => inferInstanceAs (Decidable (∀ a ∈ s.alert, vc.MovesNone s a.1 i))
  | .refreshed => inferInstanceAs (Decidable (∀ a ∈ s.alert, ∀ y ∈ vc.objectAt s a.1,
      vc.rank true s.sync.table.objects y = vc.rank s.refilled s.sync.table.objects y))
  | .cellForRowAt _ | .refresh | .reloadData | .cancel | .confirm => .isTrue trivial

end Decidable

def olga : Master where
  id := "1"
  name := "Olga"
  imageURL := "https://firebasestorage.googleapis.com/olga"
  image := some [1]

def anna : Master where
  id := "2"
  name := "Anna"
  imageURL := "https://firebasestorage.googleapis.com/anna"
  image := some [2]

/-- Two masters, fetched in the order that is not the order of their names. -/
def unsortedMasters : ListState masterClass where
  sync := ⟨(Table.empty.saveObjectRealm olga).saveObjectRealm anna, [], none⟩
  refilled := false
  refreshing := 0
  shown _ := none
  alert := none

theorem init_unsortedMasters (realm : Realm) (isURL isStorageURL : String → Bool) :
    ((mastersVC realm).runs isURL isStorageURL).init unsortedMasters := by
  have hnodup : unsortedMasters.sync.ids.Nodup := by decide
  exact ⟨⟨hnodup, rfl, rfl⟩, rfl, rfl, fun _ => rfl, rfl⟩

/-- A third master is fetched while the alert for the first row is open, and stands last. -/
theorem confirmHits_added : ∃ s : ListState masterClass,
    ((mastersVC plainRealm).runs (fun _ => true) SamplePriceListVC.isDownloadURL).Reach
      ((mastersVC plainRealm).Undisturbed SamplePriceListVC.isDownloadURL) s ∧
    s.alert.map (fun a => a.2.2.name) = some "Anna" ∧ s.sync.ids = ["1", "2", "3"] ∧
    (mastersVC plainRealm).ConfirmHits SamplePriceListVC.isDownloadURL s := by
  have hrun : (((mastersVC plainRealm).runs (fun _ => true)
      SamplePriceListVC.isDownloadURL).execWhere
      ((mastersVC plainRealm).Undisturbed SamplePriceListVC.isDownloadURL) unsortedMasters
      [.cellForRowAt 0, .refresh, .swipe 0,
        .sync (.snapshot [⟨"1", saveMasterToFirebase olga⟩, ⟨"2", saveMasterToFirebase anna⟩,
          ⟨"3", saveMasterToFirebase { olga with name := "Vera" }⟩]),
        .sync (.complete 0 (.bytes [3] true))]).map
        (fun s => (s.alert.map (fun a => a.2.2.name), s.sync.ids))
      = some (some "Anna", ["1", "2", "3"]) := by decide
  obtain ⟨s, hs, hend⟩ := Option.map_eq_some_iff.mp hrun
  obtain ⟨halert, hids⟩ := Prod.mk.inj hend
  have hreach := EventMachine.reach_of_execWhere _ (init_unsortedMasters _ _ _) hs
  exact ⟨s, hreach, halert, hids, confirmHits_of_reach plainRealm .masters _ _ s hreach⟩

/-- **The wrong master.** The first row shows Anna; it is swiped, a refresh that was started before
assigns the masters in another order, and Olga is deleted. -/
theorem not_confirmHits : ¬ ∀ (realm : Realm) (screen : Screen) (isURL isStorageURL : String → Bool)
    (s : ListState screen.realmClass),
    ((screen.listVC realm).runs isURL isStorageURL).Reachable s →
      (screen.listVC realm).ConfirmHits isStorageURL s := by
  intro hall
  have hrun : (((mastersVC plainRealm).runs (fun _ => true) SamplePriceListVC.isDownloadURL).exec
      unsortedMasters [.cellForRowAt 0, .refresh, .swipe 0, .refreshed]).map
        (fun s => (s.alert.map (fun a => (a.1, a.2.2.id)),
          ((mastersVC plainRealm).delete SamplePriceListVC.isDownloadURL s 0).map (fun x => x.1.id)))
      = some (some (0, "2"), some "1") := by decide
  obtain ⟨s, hs, hend⟩ := Option.map_eq_some_iff.mp hrun
  obtain ⟨halert, hdeleted⟩ := Prod.mk.inj hend
  have hreach := EventMachine.reachable_of_exec _ (init_unsortedMasters _ _ _) hs
  have hhits : (mastersVC plainRealm).ConfirmHits SamplePriceListVC.isDownloadURL s :=
    hall plainRealm .masters _ _ s hreach
  obtain ⟨⟨row, object⟩, ha, hrow⟩ := Option.map_eq_some_iff.mp halert
  obtain ⟨rfl, hid⟩ := Prod.mk.inj hrow
  obtain ⟨document, s', hdelete, -, hdocument, -⟩ := hhits _ ha
  rw [hdelete, Option.map_some, Option.some.injEq] at hdeleted
  have hsame : document.id = "2" := hdocument.trans hid
  rw [hdeleted] at hsame
  exact absurd hsame (by decide)

end Flamingo
