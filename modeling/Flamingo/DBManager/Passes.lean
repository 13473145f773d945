import Flamingo.Lib.Fold
import Flamingo.DBManager.Sync

set_option autoImplicit false

/-! # What a pass does

For any store and any documents: which objects a pass of `getData…OfFirebase` deletes, which
downloads it starts, and when it traps. The loop over the documents deletes the objects that a
document finds and that differ from it; the second loop deletes the objects whose id is no document
id. No object is added before a download completes.
-/

namespace Flamingo

/-- An image has arrived. -/
def Download.succeeded : Download → Bool
  | .failed => false
  | .bytes _ image => image

namespace SyncState

variable {c : RealmClass} {isURL : String → Bool}

/-! ## One document -/

/-- `saveData…ToRealm` does not trap: `URL(string:)` accepts the image URL, if there is one. -/
def urlAccepted (isURL : String → Bool) (d : Document) : Bool :=
  match d.data.string? "imageURL" with
  | none => true
  | some imageURL => isURL imageURL

/-- The download that `saveData…ToRealm` starts, if there is an image URL. -/
def started (d : Document) : List Document :=
  if (d.data.string? "imageURL").isSome then [d] else []

theorem eq_of_mem_started {d x : Document} (h : x ∈ started d) : x = d := by
  unfold started at h
  split_ifs at h
  · exact List.mem_singleton.mp h
  · cases h

theorem saveDataToRealm_guard (s : SyncState c) (d : Document) :
    s.saveDataToRealm isURL d
      = if urlAccepted isURL d then some { s with pending := s.pending ++ started d } else none := by
  unfold saveDataToRealm urlAccepted started
  cases d.data.string? "imageURL" with
  | none => simp
  | some imageURL => simp

/-- A stored object is to be fetched again for a document. -/
def differs (c : RealmClass) (d : Document) (o : Nat × c.Object) : Bool :=
  c.changed o.2 d.data == some true

/-- The comparison of a stored object with a document does not trap, nor does what follows it. -/
def comparable (c : RealmClass) (isURL : String → Bool) (d : Document) (o : Nat × c.Object) : Bool :=
  match c.changed o.2 d.data with
  | none => false
  | some false => true
  | some true => urlAccepted isURL d

/-- A comparison that comes to an end without a difference. -/
theorem changed_of_comparable {d : Document} {o : Nat × c.Object}
    (hcomparable : comparable c isURL d o = true) (hsame : differs c d o = false) :
    c.changed o.2 d.data = some false := by
  unfold comparable at hcomparable
  unfold differs at hsame
  cases hcase : c.changed o.2 d.data with
  | none =>
      rw [hcase] at hcomparable
      cases hcomparable
  | some changed =>
      cases changed with
      | false => rfl
      | true =>
          rw [hcase] at hsame
          cases hsame

/-- An object that was found, as far as nothing traps. -/
def update (d : Document) (s : SyncState c) (o : Nat × c.Object) : SyncState c :=
  if differs c d o then
    { s with table := s.table.deleteObjectRealm o.1, pending := s.pending ++ started d }
  else s

theorem updateObject_guard (d : Document) (s : SyncState c) (o : Nat × c.Object) :
    updateObject isURL d s o
      = if comparable c isURL d o then some (update d s o) else none := by
  unfold updateObject comparable update differs
  cases c.changed o.2 d.data with
  | none => rfl
  | some changed =>
      cases changed with
      | false => rfl
      | true => exact saveDataToRealm_guard _ d

theorem table_foldl_update (d : Document) (l : List (Nat × c.Object)) (s : SyncState c) :
    (l.foldl (update d) s).table
      = l.foldl (fun t o => if differs c d o then t.deleteObjectRealm o.1 else t) s.table := by
  induction l generalizing s with
  | nil => rfl
  | cons o l ih =>
      rw [List.foldl_cons, ih, List.foldl_cons]
      unfold update
      split_ifs <;> rfl

theorem pending_foldl_update (d : Document) (l : List (Nat × c.Object)) (s : SyncState c) :
    (l.foldl (update d) s).pending
      = s.pending ++ (l.filter (differs c d)).flatMap (fun _ => started d) := by
  induction l generalizing s with
  | nil => simp
  | cons o l ih =>
      rw [List.foldl_cons, ih, List.filter_cons]
      unfold update
      split_ifs with hdiffers
      · simp only [List.flatMap_cons, List.append_assoc]
      · rfl

/-- The body of the loop does not trap on a document that finds these objects. -/
def acceptsAll (isURL : String → Bool) (d : Document) (found : List (Nat × c.Object)) : Bool :=
  if found.length = 0 then urlAccepted isURL d else found.all (comparable c isURL d)

/-- The body of the loop on a document that finds these objects, as far as nothing traps. -/
def afterFound (d : Document) (found : List (Nat × c.Object)) (s : SyncState c) : SyncState c :=
  if found.length = 0 then { s with pending := s.pending ++ started d }
  else found.foldl (update d) s

theorem acceptsAll_of_ne_nil {d : Document} {found : List (Nat × c.Object)} (h : found ≠ []) :
    acceptsAll isURL d found = found.all (comparable c isURL d) :=
  if_neg (mt List.length_eq_zero_iff.mp h)

theorem afterFound_of_ne_nil {d : Document} {found : List (Nat × c.Object)} (h : found ≠ [])
    (s : SyncState c) : afterFound d found s = found.foldl (update d) s :=
  if_neg (mt List.length_eq_zero_iff.mp h)

theorem processFound_guard (d : Document) (found : List (Nat × c.Object)) (s : SyncState c) :
    (if found.length = 0 then s.saveDataToRealm isURL d else found.foldlM (updateObject isURL d) s)
      = if acceptsAll isURL d found then some (afterFound d found s) else none := by
  unfold acceptsAll afterFound
  split_ifs with hnone hurl hall
  · rw [saveDataToRealm_guard, if_pos hurl]
  · rw [saveDataToRealm_guard, if_neg hurl]
  · rw [OptionFold.foldlM_guard (updateObject_guard d), if_pos hall]
  · rw [OptionFold.foldlM_guard (updateObject_guard d), if_neg hall]

/-- The objects among these that a document finds. -/
def foundAmong (objects : List (Nat × c.Object)) (d : Document) : List (Nat × c.Object) :=
  objects.filter (fun o => Text.containsC (c.id o.2) d.documentID)

/-- The body of the loop does not trap on a document, with these objects stored. -/
def accepts (isURL : String → Bool) (objects : List (Nat × c.Object)) (d : Document) : Bool :=
  acceptsAll isURL d (foundAmong objects d)

/-- The body of the loop, as far as nothing traps. -/
def afterDocument (s : SyncState c) (d : Document) : SyncState c := afterFound d (s.found d) s

theorem processDocument_guard (s : SyncState c) (d : Document) :
    s.processDocument isURL d
      = if accepts isURL s.table.objects d then some (s.afterDocument d) else none :=
  processFound_guard d (s.found d) s

/-- An object is deleted on account of a document, which finds it and differs from it. -/
def replaced (d : Document) (o : Nat × c.Object) : Bool :=
  Text.containsC (c.id o.2) d.documentID && differs c d o

/-- **One document** deletes the objects that it finds and that differ from it. -/
theorem objects_afterDocument (s : SyncState c) (d : Document) :
    (s.afterDocument d).table.objects = s.table.objects.filter (fun o => !replaced d o) := by
  unfold afterDocument afterFound
  split_ifs with hnone
  · -- no object is found, so none is deleted
    refine (List.filter_eq_self.mpr ?_).symm
    intro o ho
    have hnil : s.found d = [] := List.eq_nil_of_length_eq_zero hnone
    have hnot := List.filter_eq_nil_iff.mp hnil o ho
    rw [Bool.not_eq_true] at hnot
    rw [replaced, hnot, Bool.false_and, Bool.not_false]
  · rw [table_foldl_update]
    have hdelete := Table.objects_foldl_delete (fun x => c.changed x d.data == some true)
      (s.found d) s.table
    refine hdelete.trans (List.filter_congr ?_)
    intro o ho
    congr 1
    rw [Bool.eq_iff_iff, List.any_eq_true, replaced, Bool.and_eq_true]
    constructor
    · rintro ⟨o', ho', hp⟩
      obtain ⟨hmem, hfound⟩ := List.mem_filter.mp ho'
      rw [Bool.and_eq_true] at hp
      -- the deletion is by key, and no two stored objects have one key
      rw [List.inj_on_of_nodup_map s.table.nodup ho hmem (beq_iff_eq.mp hp.2)]
      exact ⟨hfound, hp.1⟩
    · rintro ⟨hfound, hdiffers⟩
      refine ⟨o, List.mem_filter.mpr ⟨ho, hfound⟩, ?_⟩
      rw [Bool.and_eq_true]
      exact ⟨hdiffers, beq_self_eq_true _⟩

/-- The downloads that are started are of the document, which finds no object or one that
differs. -/
theorem pending_afterDocument (s : SyncState c) (d : Document) :
    ∃ new, (s.afterDocument d).pending = s.pending ++ new ∧ ∀ x ∈ new, x = d ∧
      ((∀ o ∈ s.table.objects, Text.containsC (c.id o.2) d.documentID = false) ∨
        ∃ o ∈ s.table.objects, replaced d o = true) := by
  unfold afterDocument afterFound
  split_ifs with hnone
  · -- nothing is found, and the document is fetched for the first time
    refine ⟨started d, rfl, ?_⟩
    intro x hx
    refine ⟨eq_of_mem_started hx, Or.inl ?_⟩
    intro o ho
    have hnil : s.found d = [] := List.eq_nil_of_length_eq_zero hnone
    exact Bool.not_eq_true _ ▸ List.filter_eq_nil_iff.mp hnil o ho
  · -- each object that differs starts a download of its own
    refine ⟨_, pending_foldl_update d (s.found d) s, ?_⟩
    intro x hx
    obtain ⟨o, ho, hx⟩ := List.mem_flatMap.mp hx
    obtain ⟨hfound, hdiffers⟩ := List.mem_filter.mp ho
    obtain ⟨hmem, hcontains⟩ := List.mem_filter.mp hfound
    refine ⟨eq_of_mem_started hx, Or.inr ⟨o, hmem, ?_⟩⟩
    rw [replaced, hcontains, hdiffers, Bool.and_self]

/-! ## A snapshot -/

/-- The objects among these that the documents before have left. -/
def leftBy (before : List Document) (objects : List (Nat × c.Object)) : List (Nat × c.Object) :=
  objects.filter (fun o => !before.any (fun d => replaced d o))

theorem mem_leftBy {before : List Document} {objects : List (Nat × c.Object)}
    {o : Nat × c.Object} :
    o ∈ leftBy before objects ↔ o ∈ objects ∧ ∀ d ∈ before, replaced d o = false := by
  simp [leftBy]

theorem leftBy_append_singleton (before : List Document) (d : Document)
    (objects : List (Nat × c.Object)) :
    leftBy (before ++ [d]) objects = (leftBy before objects).filter (fun o => !replaced d o) := by
  unfold leftBy
  rw [List.filter_filter]
  apply List.filter_congr
  intro o _
  rw [List.any_append, List.any_cons, List.any_nil, Bool.or_false, Bool.not_or, Bool.and_comm]

/-- **The loop over the documents**: the objects it leaves and the downloads it starts. -/
theorem processDocuments_effect {documents : List Document} {s t : SyncState c}
    (h : documents.foldlM (processDocument isURL) s = some t) :
    t.table.objects = leftBy documents s.table.objects ∧
      ∃ new, t.pending = s.pending ++ new ∧ ∀ x ∈ new, x ∈ documents ∧
        ((∀ o ∈ t.table.objects, Text.containsC (c.id o.2) x.documentID = false) ∨
          ∃ o ∈ s.table.objects, ∃ d ∈ documents, replaced d o = true) := by
  have hloop : t.table.objects = leftBy documents s.table.objects ∧
      ∃ new, t.pending = s.pending ++ new ∧ ∀ x ∈ new, x ∈ documents ∧
        ((∀ o ∈ t.table.objects, Text.containsC (c.id o.2) x.documentID = false) ∨
          ∃ o ∈ s.table.objects, ∃ d ∈ documents, replaced d o = true) := by
    refine OptionFold.foldlM_invariant (fun before u => u.table.objects
      = leftBy before s.table.objects ∧ ∃ new, u.pending = s.pending ++ new ∧ ∀ x ∈ new,
        x ∈ before ∧ ((∀ o ∈ u.table.objects, Text.containsC (c.id o.2) x.documentID = false) ∨
          ∃ o ∈ s.table.objects, ∃ d ∈ before, replaced d o = true)) ?_ ?_ h
    · refine ⟨?_, [], by rw [List.append_nil], fun x hx => by cases hx⟩
      simp [leftBy]
    · rintro before d after u u' - ⟨hobjects, new, hpending, hnew⟩ hone
      rw [processDocument_guard] at hone
      split_ifs at hone
      obtain rfl := Option.some.inj hone
      have hobjects' := objects_afterDocument u d
      obtain ⟨more, hmore, hof⟩ := pending_afterDocument u d
      refine ⟨?_, new ++ more, ?_, ?_⟩
      · rw [hobjects', hobjects, leftBy_append_singleton]
      · rw [hmore, hpending, List.append_assoc]
      · intro x hx
        rcases List.mem_append.mp hx with hx | hx
        · -- a download of a document before: what it did not find has not been added since
          obtain ⟨hmem, hcase⟩ := hnew x hx
          refine ⟨List.mem_append_left _ hmem, ?_⟩
          rcases hcase with hnone | ⟨o, ho, d', hd', hrep⟩
          · refine Or.inl (fun o ho => hnone o ?_)
            rw [hobjects'] at ho
            exact List.mem_of_mem_filter ho
          · exact Or.inr ⟨o, ho, d', List.mem_append_left _ hd', hrep⟩
        · obtain ⟨rfl, hcase⟩ := hof x hx
          refine ⟨by simp, ?_⟩
          rcases hcase with hnone | ⟨o, ho, hrep⟩
          · refine Or.inl (fun o ho => hnone o ?_)
            rw [hobjects'] at ho
            exact List.mem_of_mem_filter ho
          · rw [hobjects] at ho
            exact Or.inr ⟨o, (mem_leftBy.mp ho).1, x, by simp, hrep⟩
  exact hloop

theorem objects_removeOld (s : SyncState c) (idFireBase : List String) :
    (s.removeOld idFireBase).table.objects
      = s.table.objects.filter (fun o => idFireBase.contains (c.id o.2)) := by
  have hobjects := Table.objects_delete_all (fun o => !idFireBase.contains (c.id o)) s.table
  refine hobjects.trans (List.filter_congr ?_)
  intro o _
  rw [Bool.not_not]

/-- What a snapshot is: the loop over the documents, and the removal of the objects without one. -/
theorem processSnapshot_eq_some {s s' : SyncState c} {documents : List Document} :
    s.processSnapshot isURL documents = some s' ↔
      ∃ t, documents.foldlM (processDocument isURL) s = some t ∧
        s' = { t.removeOld (documents.map (·.documentID)) with snapshot := some documents } := by
  unfold processSnapshot
  rw [Option.bind_eq_bind, Option.bind_eq_some_iff]
  refine exists_congr (fun t => and_congr_right (fun _ => ?_))
  rw [Option.some.injEq, eq_comm]

/-- **A snapshot** keeps the objects whose id is a document id and from which no document that
finds them differs, and adds none. -/
theorem objects_processSnapshot {s s' : SyncState c} {documents : List Document}
    (h : s.processSnapshot isURL documents = some s') :
    s'.table.objects = (leftBy documents s.table.objects).filter
      (fun o => (documents.map (·.documentID)).contains (c.id o.2)) := by
  obtain ⟨t, hloop, rfl⟩ := processSnapshot_eq_some.mp h
  rw [← (processDocuments_effect hloop).1]
  exact objects_removeOld t _

theorem mem_processSnapshot {s s' : SyncState c} {documents : List Document}
    (h : s.processSnapshot isURL documents = some s') {o : Nat × c.Object} :
    o ∈ s'.table.objects ↔ o ∈ s.table.objects ∧ (∀ d ∈ documents, replaced d o = false) ∧
      c.id o.2 ∈ documents.map (·.documentID) := by
  rw [objects_processSnapshot h, List.mem_filter, mem_leftBy, List.contains_iff_mem, and_assoc]

/-- A snapshot does not trap if, for each of its documents, the body of the loop does not trap on
what the documents before have left. -/
theorem processSnapshot_isSome_iff (s : SyncState c) (documents : List Document) :
    (s.processSnapshot isURL documents).isSome ↔
      ∀ before d after, documents = before ++ d :: after →
        accepts isURL (leftBy before s.table.objects) d = true := by
  have hiff : (s.processSnapshot isURL documents).isSome ↔
      (documents.foldlM (processDocument isURL) s).isSome := by
    unfold processSnapshot
    cases documents.foldlM (processDocument isURL) s <;> simp
  rw [hiff]
  refine OptionFold.foldlM_isSome_iff
    (fun before t => t.table.objects = leftBy before s.table.objects)
    (fun before d => accepts isURL (leftBy before s.table.objects) d = true) ?_ ?_ ?_
  · simp [leftBy]
  · rintro before d after t t' - hobjects hone
    rw [processDocument_guard] at hone
    split_ifs at hone
    obtain rfl := Option.some.inj hone
    rw [objects_afterDocument, hobjects, leftBy_append_singleton]
  · rintro before d after t - hobjects
    rw [processDocument_guard, hobjects]
    split_ifs with haccepts
    · simpa using haccepts
    · simpa using haccepts

/-- An object that is stored after a snapshot is as the documents that find it say. -/
theorem changed_of_mem_processSnapshot {s s' : SyncState c} {documents : List Document}
    (h : s.processSnapshot isURL documents = some s') {o : Nat × c.Object}
    (ho : o ∈ s'.table.objects) {d : Document} (hd : d ∈ documents)
    (hfound : Text.containsC (c.id o.2) d.documentID = true) :
    c.changed o.2 d.data = some false := by
  obtain ⟨hmem, hkept, -⟩ := (mem_processSnapshot h).mp ho
  obtain ⟨before, after, rfl⟩ := List.append_of_mem hd
  -- the object is still there at the document's turn, and the comparison with it does not trap
  have haccepts := (processSnapshot_isSome_iff s _).mp (by rw [h]; rfl) before d after rfl
  have hleft : o ∈ foundAmong (leftBy before s.table.objects) d := by
    refine List.mem_filter.mpr ⟨mem_leftBy.mpr ⟨hmem, ?_⟩, hfound⟩
    intro d' hd'
    exact hkept d' (List.mem_append_left _ hd')
  rw [accepts, acceptsAll_of_ne_nil (List.ne_nil_of_mem hleft), List.all_eq_true] at haccepts
  have hsame := hkept d hd
  rw [replaced, hfound, Bool.true_and] at hsame
  exact changed_of_comparable (haccepts o hleft) hsame

/-! ## A download -/

/-- What a download leaves: an object more if it succeeds, and nothing otherwise. -/
theorem complete_eq_some {s s' : SyncState c} {i : Nat} {download : Download}
    (h : s.complete i download = some s') :
    ∃ d, s.pending[i]? = some d ∧ s'.pending = s.pending.eraseIdx i ∧ s'.snapshot = s.snapshot ∧
      ((∃ data, download = .bytes data true ∧
          s'.table = s.table.saveObjectRealm (c.init d.documentID d.data data)) ∨
        (download.succeeded = false ∧ s'.table = s.table)) := by
  simp only [complete, Option.bind_eq_bind] at h
  obtain ⟨d, hd, h⟩ := Option.bind_eq_some_iff.mp h
  refine ⟨d, hd, ?_⟩
  cases download with
  | failed =>
      obtain rfl := Option.some.inj h
      exact ⟨rfl, rfl, Or.inr ⟨rfl, rfl⟩⟩
  | bytes data image =>
      cases image with
      | true =>
          obtain rfl := Option.some.inj h
          exact ⟨rfl, rfl, Or.inl ⟨data, rfl, rfl⟩⟩
      | false =>
          simp only [Bool.false_eq_true, if_false] at h
          split_ifs at h
          obtain rfl := Option.some.inj h
          exact ⟨rfl, rfl, Or.inr ⟨rfl, rfl⟩⟩

/-! ## Objects that are never changed -/

/-- The stored objects with an id. -/
def withId (s : SyncState c) (id : String) : List (Nat × c.Object) :=
  s.table.objects.filter (fun o => c.id o.2 == id)

theorem replaced_of_never_changed (hsame : ∀ object data, c.changed object data = some false)
    (d : Document) (o : Nat × c.Object) : replaced d o = false := by
  rw [replaced, differs, hsame]
  exact Bool.and_false _

theorem leftBy_of_never_changed (hsame : ∀ object data, c.changed object data = some false)
    (documents : List Document) (objects : List (Nat × c.Object)) :
    leftBy documents objects = objects := by
  apply List.filter_eq_self.mpr
  intro o _
  rw [Bool.not_eq_true', List.any_eq_false]
  intro d _
  rw [replaced_of_never_changed hsame]
  exact Bool.false_ne_true

/-- A snapshot that has the document of an id keeps the objects with this id, and it starts no
download of the document if there is one. -/
theorem withId_processSnapshot (hsame : ∀ object data, c.changed object data = some false)
    {s s' : SyncState c} {documents : List Document} {id : String}
    (hdoc : id ∈ documents.map (·.documentID)) (hone : s.withId id ≠ [])
    (hpending : id ∉ s.pendingIds) (h : s.processSnapshot isURL documents = some s') :
    s'.withId id = s.withId id ∧ id ∉ s'.pendingIds := by
  constructor
  · rw [withId, objects_processSnapshot h, leftBy_of_never_changed hsame, List.filter_filter, withId]
    apply List.filter_congr
    intro o _
    by_cases hid : c.id o.2 = id
    · have hmem : (documents.map (·.documentID)).contains (c.id o.2) = true := by
        rw [List.contains_iff_mem]
        exact hid ▸ hdoc
      rw [hmem, Bool.and_true]
    · rw [beq_eq_false_iff_ne.mpr hid, Bool.false_and]
  · obtain ⟨t, hloop, rfl⟩ := processSnapshot_eq_some.mp h
    obtain ⟨hobjects, new, hpending', hnew⟩ := processDocuments_effect hloop
    rw [leftBy_of_never_changed hsame] at hobjects
    show id ∉ t.pending.map (·.documentID)
    rw [hpending', List.map_append, List.mem_append, not_or]
    refine ⟨hpending, ?_⟩
    intro hmem
    obtain ⟨d, hd, rfl⟩ := List.mem_map.mp hmem
    rcases (hnew d hd).2 with hnone | ⟨o, -, d', -, hrep⟩
    · -- the stored object would have been found
      obtain ⟨o, ho⟩ := List.exists_mem_of_ne_nil _ hone
      obtain ⟨hstored, hid⟩ := List.mem_filter.mp ho
      have hnot := hnone o (hobjects ▸ hstored)
      rw [beq_iff_eq.mp hid, Text.containsC_self] at hnot
      cases hnot
    · rw [replaced_of_never_changed hsame] at hrep
      cases hrep

/-- The download of another document keeps the objects with an id. -/
theorem withId_complete {s s' : SyncState c} {i : Nat} {download : Download} {id : String}
    (hpending : id ∉ s.pendingIds) (h : s.complete i download = some s') :
    s'.withId id = s.withId id ∧ id ∉ s'.pendingIds := by
  obtain ⟨d, hd, hpending', -, hcase⟩ := complete_eq_some h
  constructor
  · rcases hcase with ⟨data, -, htable⟩ | ⟨-, htable⟩
    · have hne : (c.id (c.init d.documentID d.data data) == id) = false := by
        rw [c.id_init, beq_eq_false_iff_ne]
        rintro rfl
        exact hpending (List.mem_map_of_mem (List.mem_of_getElem? hd))
      rw [withId, htable, Table.saveObjectRealm, List.filter_append,
        List.filter_cons_of_neg (by rw [hne]; exact Bool.false_ne_true), List.filter_nil,
        List.append_nil, withId]
    · rw [withId, htable, withId]
  · rw [pendingIds, hpending']
    intro hmem
    obtain ⟨d', hd', rfl⟩ := List.mem_map.mp hmem
    exact hpending (List.mem_map_of_mem (List.mem_of_mem_eraseIdx hd'))

/-! ## Stored objects -/

/-- The stored object with the key is not deleted: its document is in the snapshot, and no document
that finds it differs from it. -/
def Spares (s : SyncState c) (key : Nat) : SyncEvent → Prop
  | .snapshot documents => ∀ o ∈ s.table.objects, o.1 = key →
      c.id o.2 ∈ documents.map (·.documentID) ∧ ∀ d ∈ documents, replaced d o = false
  | .snapshotError => True
  | .complete _ _ => True

instance (s : SyncState c) (key : Nat) (e : SyncEvent) : Decidable (s.Spares key e) :=
  match e with
  | .snapshot documents => inferInstanceAs (Decidable (∀ o ∈ s.table.objects, o.1 = key →
      c.id o.2 ∈ documents.map (·.documentID) ∧ ∀ d ∈ documents, replaced d o = false))
  | .snapshotError | .complete _ _ => .isTrue trivial

/-- **A stored object** is stored after a step exactly if the step spares it. -/
theorem read_isSome_step {s s' : SyncState c} {e : SyncEvent} {key : Nat}
    (hread : (s.table.read key).isSome) (h : s.step isURL e = some s') :
    (s'.table.read key).isSome ↔ s.Spares key e := by
  obtain ⟨o, ho, rfl⟩ := Table.read_isSome_iff.mp hread
  cases e with
  | snapshot documents =>
      rw [Table.read_isSome_iff]
      constructor
      · rintro ⟨o', ho', hkey⟩ o'' ho'' hkey'
        obtain ⟨hmem, hkept, hdoc⟩ := (mem_processSnapshot h).mp ho'
        obtain rfl := List.inj_on_of_nodup_map s.table.nodup hmem ho'' (hkey.trans hkey'.symm)
        exact ⟨hdoc, hkept⟩
      · intro hspares
        obtain ⟨hdoc, hkept⟩ := hspares o ho rfl
        exact ⟨o, (mem_processSnapshot h).mpr ⟨ho, hkept, hdoc⟩, rfl⟩
  | snapshotError =>
      obtain rfl := Option.some.inj h
      exact iff_of_true hread trivial
  | complete i download =>
      obtain ⟨d, -, -, -, hcase⟩ := complete_eq_some h
      refine iff_of_true ?_ trivial
      rcases hcase with ⟨data, -, htable⟩ | ⟨-, htable⟩
      · -- the object that the download adds has a key of its own
        rw [htable, Table.read_saveObjectRealm _ (s.table.key_lt o ho)]
        exact hread
      · rw [htable]
        exact hread

end SyncState

end Flamingo
