import Flamingo.DBManager.Sync

set_option autoImplicit false

/-! # The synchronisation converges

Between the presence test of a document and the insertion of its object lies a download. While no
other snapshot is processed, the ids of the objects and the ids of the pending downloads are
together the ids of the last snapshot, and when the downloads are through the table has them all.
A snapshot that is processed while a download is pending does not see it: it starts the download of
the same document again, or it leaves the download of a removed document to come back.
-/

namespace Flamingo

/-! ## Lists with distinct values -/

/-- Of a list whose images under `f` are distinct, one element has the image of an element. -/
theorem filter_eq_singleton {α β : Type} [DecidableEq β] {f : α → β} {l : List α}
    (h : (l.map f).Nodup) {o : α} (ho : o ∈ l) : l.filter (fun o' => f o' == f o) = [o] := by
  induction l with
  | nil => cases ho
  | cons a l ih =>
      rw [List.map_cons, List.nodup_cons] at h
      rcases List.mem_cons.mp ho with rfl | ho
      · have hrest : l.filter (fun o' => f o' == f o) = [] := by
          apply List.filter_eq_nil_iff.mpr
          intro b hb heq
          apply h.1
          rw [← beq_iff_eq.mp heq]
          exact List.mem_map_of_mem hb
        rw [List.filter_cons_of_pos (by simp), hrest]
      · have hne : f a ≠ f o := fun heq => h.1 (heq ▸ List.mem_map_of_mem ho)
        rw [List.filter_cons_of_neg (by simpa using hne), ih h.2 ho]

/-- Two lists of distinct values, of which one is completed by what it lacks of the other. -/
theorem perm_filter_append {l l' : List String} (h : l.Nodup) (h' : l'.Nodup) :
    (l.filter (fun x => l'.contains x) ++ l'.filter (fun x => !l.contains x)).Perm l' := by
  have hcommon : (l.filter (fun x => l'.contains x)).Perm (l'.filter (fun x => l.contains x)) := by
    rw [List.perm_ext_iff_of_nodup (h.filter _) (h'.filter _)]
    intro x
    simp [and_comm]
  calc (l.filter (fun x => l'.contains x) ++ l'.filter (fun x => !l.contains x)).Perm
        (l'.filter (fun x => l.contains x) ++ l'.filter (fun x => !l.contains x)) :=
        hcommon.append_right _
    List.Perm _ l' := List.filter_append_perm _ l'

namespace SyncState

variable {c : RealmClass} {isURL : String → Bool}

/-! ## The property and its condition -/

/-- When no download is pending, the table has an object for each document of the last snapshot,
one each and no others. -/
def Converged (s : SyncState c) : Prop :=
  s.pending = [] → ∀ documents ∈ s.snapshot, s.ids.Perm (documents.map (·.documentID))

/-- When the pending downloads are through, and no other snapshot comes in between, the table has
converged. -/
def Converges (isURL : String → Bool) (s : SyncState c) : Prop :=
  ∀ (downloads : List (Nat × ImageData)) (s' : SyncState c),
    (sync c isURL).exec s (downloads.map (fun x => .complete x.1 (.bytes x.2 true))) = some s' →
    s'.Converged

/-- The ids of a snapshot are distinct, none of them is contained in another one or in the id of an
object, and every document has an image URL; the downloads succeed. -/
def WellFormed (s : SyncState c) (isURL : String → Bool) : SyncEvent → Prop
  | .snapshot documents =>
      (documents.map (·.documentID)).Nodup ∧
      (∀ x ∈ s.ids ++ s.pendingIds ++ documents.map (·.documentID),
        ∀ y ∈ documents.map (·.documentID), Text.containsC x y = true → x = y) ∧
      ∀ d ∈ documents, ∃ imageURL ∈ d.data.string? "imageURL", isURL imageURL = true
  | .snapshotError => True
  | .complete _ download => ∃ data, download = .bytes data true

/-- A snapshot is processed when the downloads of the class are through. -/
def Sequential (s : SyncState c) : SyncEvent → Prop
  | .snapshot _ => s.pending = []
  | _ => True

/-! ## One document -/

/-- The objects that are found for a document are those with its id. -/
theorem found_eq {s : SyncState c} {d : Document}
    (hsep : ∀ x ∈ s.ids, Text.containsC x d.documentID = true → x = d.documentID) :
    s.found d = s.table.objects.filter (fun o => c.id o.2 == d.documentID) := by
  apply List.filter_congr
  intro o ho
  rw [Bool.eq_iff_iff, beq_iff_eq]
  constructor
  · exact hsep _ (List.mem_map_of_mem ho)
  · intro heq
    rw [heq]
    exact Text.containsC_self _

theorem saveDataToRealm_eq {s : SyncState c} {d : Document}
    (hurl : ∃ imageURL ∈ d.data.string? "imageURL", isURL imageURL = true) :
    s.saveDataToRealm isURL d = some { s with pending := s.pending ++ [d] } := by
  obtain ⟨imageURL, hget, hvalid⟩ := hurl
  rw [Option.mem_def] at hget
  simp only [saveDataToRealm, hget, hvalid, if_true]

/-- Deleting an object takes its id out. -/
theorem perm_ids_delete {t : Table c.Object} {o : Nat × c.Object} (ho : o ∈ t.objects) :
    (t.objects.map (fun o => c.id o.2)).Perm
      (c.id o.2 :: (t.deleteObjectRealm o.1).objects.map (fun o => c.id o.2)) := by
  have hsplit := List.filter_append_perm (fun o' : Nat × c.Object => o'.1 == o.1) t.objects
  rw [filter_eq_singleton t.nodup ho, List.singleton_append] at hsplit
  exact (hsplit.symm.map (fun o => c.id o.2))

/-- **One document**: its id is added to the ids of the objects and the downloads, unless an
object has it. -/
theorem processDocument_spec {s s' : SyncState c} {d : Document}
    (hsep : ∀ x ∈ s.ids, Text.containsC x d.documentID = true → x = d.documentID)
    (hnodup : s.ids.Nodup)
    (hurl : ∃ imageURL ∈ d.data.string? "imageURL", isURL imageURL = true)
    (h : s.processDocument isURL d = some s') :
    (s'.ids ++ s'.pendingIds).Perm (s.ids ++ s.pendingIds ++
        if d.documentID ∈ s.ids then [] else [d.documentID]) ∧
      (∀ x, x ≠ d.documentID → (x ∈ s'.ids ↔ x ∈ s.ids)) ∧
      s'.ids.Nodup ∧ (∀ x ∈ s'.ids, x ∈ s.ids) ∧
      ∀ x ∈ s'.pendingIds, x ∈ s.pendingIds ∨ x = d.documentID := by
  have hfound := found_eq hsep
  unfold processDocument at h
  by_cases hmem : d.documentID ∈ s.ids
  · obtain ⟨o, ho, hid⟩ := List.mem_map.mp hmem
    have hone : s.found d = [o] := by
      rw [hfound, ← hid]
      exact filter_eq_singleton hnodup ho
    rw [hone] at h
    simp only [List.length_singleton, one_ne_zero, if_false, List.foldlM_cons, List.foldlM_nil,
      bind_pure] at h
    rw [if_pos hmem, List.append_nil]
    simp only [updateObject, Option.bind_eq_bind] at h
    obtain ⟨changed, -, h⟩ := Option.bind_eq_some_iff.mp h
    cases changed with
    | false =>
        -- the object is there and stays
        obtain rfl := Option.some.inj h
        exact ⟨List.Perm.refl _, fun x _ => Iff.rfl, hnodup, fun x hx => hx, fun x hx => Or.inl hx⟩
    | true =>
        rw [if_pos rfl, saveDataToRealm_eq hurl] at h
        obtain rfl := Option.some.inj h
        have hperm : s.ids.Perm (d.documentID ::
            (s.table.deleteObjectRealm o.1).objects.map (fun o => c.id o.2)) :=
          hid ▸ perm_ids_delete ho
        -- the object is gone, and its document is the last of the downloads
        refine ⟨?_, ?_, ?_, ?_, ?_⟩
        · show (_ ++ (s.pending ++ [d]).map (·.documentID)).Perm _
          rw [List.map_append, List.map_singleton, ← List.append_assoc]
          exact (List.perm_append_singleton d.documentID _).trans (hperm.append_right _).symm
        · intro x hx
          rw [hperm.mem_iff, List.mem_cons, or_iff_right hx]
          rfl
        · exact (List.nodup_cons.mp (hperm.nodup hnodup)).2
        · intro x hx
          exact hperm.symm.subset (List.mem_cons_of_mem _ hx)
        · intro x hx
          simpa [pendingIds] using hx
  · -- no object is found, and the download is started
    have hnone : s.found d = [] := by
      rw [hfound]
      apply List.filter_eq_nil_iff.mpr
      intro o ho heq
      apply hmem
      rw [← beq_iff_eq.mp heq]
      exact List.mem_map_of_mem ho
    rw [hnone, List.length_nil, if_pos rfl, saveDataToRealm_eq hurl] at h
    obtain rfl := Option.some.inj h
    rw [if_neg hmem]
    refine ⟨?_, fun x _ => Iff.rfl, hnodup, fun x hx => hx, ?_⟩
    · simp only [ids, pendingIds, List.map_append, List.map_singleton, List.append_assoc]
      exact List.Perm.refl _
    · intro x hx
      simpa [pendingIds] using hx

/-! ## A snapshot -/

/-- **The loop over the documents** adds the ids of the documents that no object has. -/
theorem processDocuments_spec :
    ∀ (documents : List Document) (s s' : SyncState c),
      (∀ d ∈ documents, ∀ x ∈ s.ids, Text.containsC x d.documentID = true → x = d.documentID) →
      s.ids.Nodup → (documents.map (·.documentID)).Nodup →
      (∀ d ∈ documents, ∃ imageURL ∈ d.data.string? "imageURL", isURL imageURL = true) →
      documents.foldlM (processDocument isURL) s = some s' →
      (s'.ids ++ s'.pendingIds).Perm (s.ids ++ s.pendingIds ++
        (documents.map (·.documentID)).filter (fun x => !s.ids.contains x)) ∧
      (∀ x ∈ s'.ids, x ∈ s.ids) ∧
      ∀ x ∈ s'.pendingIds, x ∈ s.pendingIds ∨ x ∈ documents.map (·.documentID) := by
  intro documents
  -- the induction is on the documents, the ids of the objects only become fewer
  induction documents with
  | nil =>
      intro s s' _ _ _ _ h
      obtain rfl := Option.some.inj h
      exact ⟨by simp, fun x hx => hx, fun x hx => Or.inl hx⟩
  | cons d documents ih =>
      intro s s' hsep hnodup hdocs hurl h
      rw [List.foldlM_cons, Option.bind_eq_bind] at h
      obtain ⟨t, hone, hrest⟩ := Option.bind_eq_some_iff.mp h
      rw [List.map_cons, List.nodup_cons] at hdocs
      obtain ⟨hperm, hother, hnodup', hsub, hpending⟩ := processDocument_spec
        (hsep d List.mem_cons_self) hnodup (hurl d List.mem_cons_self) hone
      obtain ⟨hih, hihSub, hihPending⟩ := ih t s'
        (fun d' hd' x hx => hsep d' (List.mem_cons_of_mem _ hd') x (hsub x hx)) hnodup' hdocs.2
        (fun d' hd' => hurl d' (List.mem_cons_of_mem _ hd')) hrest
      -- the other documents find the same objects as before
      have hsame : (documents.map (·.documentID)).filter (fun x => !t.ids.contains x)
          = (documents.map (·.documentID)).filter (fun x => !s.ids.contains x) := by
        apply List.filter_congr
        intro x hx
        have hne : x ≠ d.documentID := fun heq => hdocs.1 (heq ▸ hx)
        have hiff := hother x hne
        rw [Bool.eq_iff_iff]
        simp only [Bool.not_eq_true', List.contains_eq_mem, decide_eq_false_iff_not, hiff]
      have hfirst : ((if d.documentID ∈ s.ids then [] else [d.documentID]) ++
          (documents.map (·.documentID)).filter (fun x => !s.ids.contains x))
            = ((d :: documents).map (·.documentID)).filter (fun x => !s.ids.contains x) := by
        rw [List.map_cons]
        by_cases hmem : d.documentID ∈ s.ids
        · rw [if_pos hmem, List.filter_cons_of_neg (by simpa using hmem), List.nil_append]
        · rw [if_neg hmem, List.filter_cons_of_pos (by simpa using hmem), List.singleton_append]
      refine ⟨?_, ?_, ?_⟩
      · rw [hsame] at hih
        rw [← hfirst, ← List.append_assoc]
        exact hih.trans (hperm.append_right _)
      · intro x hx
        exact hsub x (hihSub x hx)
      · intro x hx
        rw [List.map_cons, List.mem_cons]
        rcases hihPending x hx with hx | hx
        · exact (hpending x hx).imp id Or.inl
        · exact Or.inr (Or.inr hx)

theorem ids_removeOld (s : SyncState c) (idFireBase : List String) :
    (s.removeOld idFireBase).ids = s.ids.filter (fun x => idFireBase.contains x) := by
  have hobjects := Table.objects_delete_all (fun o => !idFireBase.contains (c.id o)) s.table
  simp only [removeOld, ids]
  rw [hobjects, List.filter_map]
  simp only [Bool.not_not]
  rfl

/-- What a snapshot does: the loop over the documents, and the removal of the objects without
one. -/
theorem processSnapshot_cases {s s' : SyncState c} {documents : List Document}
    (hnodup : s.ids.Nodup) (hwf : WellFormed s isURL (.snapshot documents))
    (h : s.processSnapshot isURL documents = some s') :
    ∃ t : SyncState c,
      (t.ids ++ t.pendingIds).Perm (s.ids ++ s.pendingIds ++
        (documents.map (·.documentID)).filter (fun x => !s.ids.contains x)) ∧
      (∀ x ∈ t.ids, x ∈ s.ids) ∧
      (∀ x ∈ t.pendingIds, x ∈ s.pendingIds ∨ x ∈ documents.map (·.documentID)) ∧
      s'.snapshot = some documents ∧ s'.pendingIds = t.pendingIds ∧
      s'.ids = t.ids.filter (fun x => (documents.map (·.documentID)).contains x) := by
  obtain ⟨hdocs, hsep, hurl⟩ := hwf
  simp only [processSnapshot, Option.bind_eq_bind] at h
  obtain ⟨t, hloop, h⟩ := Option.bind_eq_some_iff.mp h
  obtain rfl := Option.some.inj h
  obtain ⟨hall, hsub, hfrom⟩ := processDocuments_spec documents s t (fun d hd x hx => hsep x
    (by simp [hx]) _ (List.mem_map_of_mem hd)) hnodup hdocs hurl hloop
  exact ⟨t, hall, hsub, hfrom, rfl, rfl, ids_removeOld t _⟩

/-- **A snapshot that finds no pending download** leaves the ids of its documents, as objects and
as downloads. -/
theorem perm_of_quiet {s s' : SyncState c} {documents : List Document}
    (hnodup : s.ids.Nodup) (hwf : WellFormed s isURL (.snapshot documents))
    (hpending : s.pending = []) (h : s.processSnapshot isURL documents = some s') :
    (s'.ids ++ s'.pendingIds).Perm (documents.map (·.documentID)) := by
  obtain ⟨t, hall, -, hfrom, -, hpend', hids'⟩ := processSnapshot_cases hnodup hwf h
  have hnone : s.pendingIds = [] := by rw [pendingIds, hpending, List.map_nil]
  rw [hnone] at hall hfrom
  rw [List.append_nil] at hall
  rw [hids', hpend']
  have hdocs := hwf.1
  generalize documents.map (·.documentID) = docIds at hall hfrom hdocs ⊢
  -- every download is of a document of the snapshot, so removing the old ids filters them all
  have hpend : t.pendingIds.filter (fun x => docIds.contains x) = t.pendingIds := by
    apply List.filter_eq_self.mpr
    intro x hx
    rcases hfrom x hx with hx | hx
    · cases hx
    · simpa using hx
  have hnew : (docIds.filter (fun x => !s.ids.contains x)).filter (fun x => docIds.contains x)
      = docIds.filter (fun x => !s.ids.contains x) := by
    apply List.filter_eq_self.mpr
    intro x hx
    simpa using List.mem_of_mem_filter hx
  calc t.ids.filter (fun x => docIds.contains x) ++ t.pendingIds
      = (t.ids ++ t.pendingIds).filter (fun x => docIds.contains x) := by
        rw [List.filter_append, hpend]
    List.Perm _ ((s.ids ++ docIds.filter (fun x => !s.ids.contains x)).filter
        (fun x => docIds.contains x)) := hall.filter _
    _ = s.ids.filter (fun x => docIds.contains x) ++ docIds.filter (fun x => !s.ids.contains x) := by
        rw [List.filter_append, hnew]
    List.Perm _ docIds := perm_filter_append hnodup hdocs

/-- **A snapshot that finds a pending download** starts it again or leaves it to come back. -/
theorem not_perm_of_pending {s s' : SyncState c} {documents : List Document}
    (hnodup : (s.ids ++ s.pendingIds).Nodup) (hwf : WellFormed s isURL (.snapshot documents))
    (hpending : s.pending ≠ []) (h : s.processSnapshot isURL documents = some s') :
    ¬ (s'.ids ++ s'.pendingIds).Perm (documents.map (·.documentID)) := by
  intro hperm
  obtain ⟨hids, -, hdisjoint⟩ := List.nodup_append.mp hnodup
  obtain ⟨t, hall, hsub, -, -, hpend', hids'⟩ := processSnapshot_cases hids hwf h
  rw [hids', hpend'] at hperm
  obtain ⟨d, hd⟩ := List.exists_mem_of_ne_nil _ hpending
  have hd : d.documentID ∈ s.pendingIds := List.mem_map_of_mem hd
  have hdids : d.documentID ∉ s.ids := fun hmem => hdisjoint _ hmem _ hd rfl
  -- the download is still pending, and no object has its id
  have hcount := hall.count_eq d.documentID
  have htids : t.ids.count d.documentID = 0 :=
    List.count_eq_zero.mpr (fun hmem => hdids (hsub _ hmem))
  have hone : 0 < s.pendingIds.count d.documentID := List.count_pos_iff.mpr hd
  rw [List.count_append, List.count_append, List.count_append, htids] at hcount
  have hstill : d.documentID ∈ t.pendingIds := List.count_pos_iff.mp (by omega)
  -- so its id is one of the snapshot, and its download has been started a second time
  have hdoc := hperm.subset (List.mem_append_right _ hstill)
  have hagain : 0 < ((documents.map (·.documentID)).filter
      (fun x => !s.ids.contains x)).count d.documentID := by
    refine List.count_pos_iff.mpr (List.mem_filter.mpr ⟨hdoc, ?_⟩)
    simpa using hdids
  have htwice := hperm.count_eq d.documentID
  have hle := List.nodup_iff_count_le_one.mp hwf.1 d.documentID
  rw [List.count_append] at htwice
  omega

/-! ## The invariant -/

/-- The objects and the downloads are the documents of the last snapshot. -/
def Balanced (s : SyncState c) : Prop :=
  ∀ documents ∈ s.snapshot, (s.ids ++ s.pendingIds).Perm (documents.map (·.documentID))

structure SyncInv (s : SyncState c) : Prop where
  nodup : (s.ids ++ s.pendingIds).Nodup
  /-- nothing is downloaded before the first snapshot -/
  quiet : s.snapshot = none → s.pending = []
  balanced : s.Balanced

theorem syncInv_init {s : SyncState c} (h : (sync c isURL).init s) : SyncInv s := by
  obtain ⟨hnodup, hpending, hnone⟩ := h
  refine ⟨?_, fun _ => hpending, ?_⟩
  · rw [pendingIds, hpending, List.map_nil, List.append_nil]
    exact hnodup
  · intro documents hdocs
    rw [hnone] at hdocs
    cases hdocs

theorem syncInv_snapshot {s s' : SyncState c} {documents : List Document} (hi : SyncInv s)
    (hwf : WellFormed s isURL (.snapshot documents)) (hseq : s.pending = [])
    (h : s.processSnapshot isURL documents = some s') : SyncInv s' := by
  have hids := (List.nodup_append.mp hi.nodup).1
  obtain ⟨-, -, -, -, hsnapshot, -, -⟩ := processSnapshot_cases hids hwf h
  have hperm := perm_of_quiet hids hwf hseq h
  refine ⟨hperm.symm.nodup hwf.1, ?_, ?_⟩
  · intro hnone
    rw [hsnapshot] at hnone
    cases hnone
  · intro documents' hdocs
    rw [hsnapshot, Option.mem_some_iff] at hdocs
    exact hdocs ▸ hperm

/-- **A download that succeeds** turns into an object. -/
theorem complete_spec {s s' : SyncState c} {i : Nat} {data : ImageData}
    (h : s.complete i (.bytes data true) = some s') :
    s'.snapshot = s.snapshot ∧ s.pending ≠ [] ∧
      (s'.ids ++ s'.pendingIds).Perm (s.ids ++ s.pendingIds) := by
  simp only [complete, Option.bind_eq_bind] at h
  obtain ⟨d, hd, h⟩ := Option.bind_eq_some_iff.mp h
  obtain ⟨hlt, hget⟩ := List.getElem?_eq_some_iff.mp hd
  obtain rfl := Option.some.inj h
  refine ⟨rfl, fun hnil => by simp [hnil] at hlt, ?_⟩
  have herase : (d :: s.pending.eraseIdx i).Perm s.pending := by
    rw [← hget]
    exact List.getElem_cons_eraseIdx_perm hlt
  have hids : ({ s with
      pending := s.pending.eraseIdx i
      table := s.table.saveObjectRealm (c.init d.documentID d.data data) } : SyncState c).ids
        = s.ids ++ [d.documentID] := by
    simp only [ids, Table.saveObjectRealm, List.map_append, List.map_singleton, c.id_init]
  calc _ ++ (s.pending.eraseIdx i).map (·.documentID)
      = s.ids ++ (d :: s.pending.eraseIdx i).map (·.documentID) := by
        rw [hids, List.append_assoc, List.singleton_append, List.map_cons]
    List.Perm _ (s.ids ++ s.pendingIds) := (herase.map _).append_left s.ids

theorem syncInv_complete {s s' : SyncState c} {i : Nat} {data : ImageData} (hi : SyncInv s)
    (h : s.complete i (.bytes data true) = some s') : SyncInv s' := by
  obtain ⟨hsnapshot, hpending, hperm⟩ := complete_spec h
  refine ⟨hperm.symm.nodup hi.nodup, ?_, ?_⟩
  · intro hnone
    exact absurd (hi.quiet (hsnapshot ▸ hnone)) hpending
  · intro documents hdocs
    exact hperm.trans (hi.balanced documents (hsnapshot ▸ hdocs))

theorem syncInv_step {s s' : SyncState c} {e : SyncEvent} (hi : SyncInv s)
    (hwf : WellFormed s isURL e) (hseq : Sequential s e) (h : s.step isURL e = some s') :
    SyncInv s' := by
  cases e with
  | snapshot documents => exact syncInv_snapshot hi hwf hseq h
  | snapshotError =>
      obtain rfl := Option.some.inj h
      exact hi
  | complete i download =>
      obtain ⟨data, rfl⟩ := hwf
      exact syncInv_complete hi h

theorem syncInv_reach {s : SyncState c}
    (h : (sync c isURL).Reach (fun s e => WellFormed s isURL e ∧ Sequential s e) s) :
    SyncInv s :=
  h.invariant SyncInv (fun _ h0 => syncInv_init h0)
    (fun _ _ _ hi hc hs => syncInv_step hi hc.1 hc.2 hs)

/-! ## Draining the downloads -/

/-- The downloads alone move the ids of the pending documents to the objects. -/
theorem exec_downloads :
    ∀ (downloads : List (Nat × ImageData)) {s s' : SyncState c},
      (sync c isURL).exec s (downloads.map (fun x => .complete x.1 (.bytes x.2 true))) = some s' →
      s'.snapshot = s.snapshot ∧ (s'.ids ++ s'.pendingIds).Perm (s.ids ++ s.pendingIds) := by
  intro downloads
  induction downloads with
  | nil =>
      intro s s' h
      obtain rfl := Option.some.inj h
      exact ⟨rfl, List.Perm.refl _⟩
  | cons x downloads ih =>
      intro s s' h
      obtain ⟨t, hone, hrest⟩ := Option.bind_eq_some_iff.mp h
      obtain ⟨hsnapshot, -, hperm⟩ := complete_spec hone
      obtain ⟨hsnapshot', hperm'⟩ := ih hrest
      exact ⟨hsnapshot'.trans hsnapshot, hperm'.trans hperm⟩

/-- Whatever is pending, there is a run of downloads after which nothing is. -/
theorem exists_drained (isURL : String → Bool) :
    ∀ (n : Nat) (s : SyncState c), s.pending.length = n →
      ∃ (downloads : List (Nat × ImageData)) (s' : SyncState c),
        (sync c isURL).exec s (downloads.map (fun x => .complete x.1 (.bytes x.2 true))) = some s' ∧
          s'.pending = [] := by
  intro n
  induction n with
  | zero =>
      intro s hn
      exact ⟨[], s, rfl, List.eq_nil_of_length_eq_zero hn⟩
  | succ n ih =>
      intro s hn
      cases hp : s.pending with
      | nil =>
          rw [hp] at hn
          cases hn
      | cons d rest =>
          -- the first download completes, with whatever bytes
          obtain ⟨downloads, s', hexec, hdone⟩ := ih
            { s with
              pending := rest
              table := s.table.saveObjectRealm (c.init d.documentID d.data []) }
            (by rw [hp] at hn; exact Nat.succ.inj hn)
          refine ⟨(0, []) :: downloads, s', ?_, hdone⟩
          simp only [List.map_cons, EventMachine.exec, sync, step, complete, hp,
            List.getElem?_cons_zero, List.eraseIdx_cons_zero, Option.bind_eq_bind,
            Option.bind_some, if_true]
          exact hexec

/-- **The invariant is exact**: the table converges if and only if the objects and the downloads
are the documents of the last snapshot. -/
theorem converges_iff_balanced {s : SyncState c} : s.Converges isURL ↔ s.Balanced := by
  constructor
  · intro h documents hdocs
    obtain ⟨downloads, s', hexec, hdone⟩ := exists_drained isURL s.pending.length s rfl
    obtain ⟨hsnapshot, hperm⟩ := exec_downloads downloads hexec
    have hids := h downloads s' hexec hdone documents (hsnapshot ▸ hdocs)
    rw [pendingIds, hdone, List.map_nil, List.append_nil] at hperm
    exact hperm.symm.trans hids
  · intro h downloads s' hexec hdone documents hdocs
    obtain ⟨hsnapshot, hperm⟩ := exec_downloads downloads hexec
    rw [pendingIds, hdone, List.map_nil, List.append_nil] at hperm
    exact hperm.trans (h documents (hsnapshot ▸ hdocs))

/-- A step keeps the table converging exactly when it meets the condition. -/
theorem converges_step {s s' : SyncState c} {e : SyncEvent} (hi : SyncInv s)
    (hwf : WellFormed s isURL e) (h : s.step isURL e = some s') :
    s'.Converges isURL ↔ Sequential s e := by
  rw [converges_iff_balanced]
  constructor
  · intro hbalanced
    cases e with
    | snapshot documents =>
        show s.pending = []
        -- a pending download would be started twice or come back
        by_contra hpending
        obtain ⟨-, -, -, -, hsnapshot, -, -⟩ :=
          processSnapshot_cases (List.nodup_append.mp hi.nodup).1 hwf h
        exact not_perm_of_pending hi.nodup hwf hpending h (hbalanced documents hsnapshot)
    | snapshotError => trivial
    | complete i download => trivial
  · intro hseq
    exact (syncInv_step hi hwf hseq h).balanced

end SyncState

/-! ## The runs -/

/-- **Synchronisation converges** in the runs in which no snapshot is processed while a download of
the class is pending, and such a snapshot is what it takes to break it: the step after such a run
keeps the table converging if and only if it is not one. -/
theorem converged_of_reach (k : SyncClass) (isURL : String → Bool) (s : SyncState k.realmClass)
    (h : (sync k.realmClass isURL).Reach
      (fun s e => s.WellFormed isURL e ∧ s.Sequential e) s) :
    s.Converged ∧ ∀ e s', s.WellFormed isURL e → s.step isURL e = some s' →
      (s'.Converges isURL ↔ s.Sequential e) := by
  have hi := SyncState.syncInv_reach h
  refine ⟨?_, fun e s' hwf hs => SyncState.converges_step hi hwf hs⟩
  have hconverges : s.Converges isURL := SyncState.converges_iff_balanced.mpr hi.balanced
  exact hconverges [] s rfl

instance {c : RealmClass} (isURL : String → Bool) (s : SyncState c) (e : SyncEvent) :
    Decidable (s.WellFormed isURL e) :=
  match e with
  | .snapshot documents => inferInstanceAs (Decidable (_ ∧ _ ∧ ∀ d ∈ documents,
      ∃ imageURL ∈ d.data.string? "imageURL", isURL imageURL = true))
  | .snapshotError => .isTrue trivial
  | .complete _ (.bytes data true) => .isTrue ⟨data, rfl⟩
  | .complete _ (.bytes _ false) => .isFalse (fun ⟨_, h⟩ => by cases h)
  | .complete _ .failed => .isFalse (fun ⟨_, h⟩ => by cases h)

instance {c : RealmClass} (s : SyncState c) (e : SyncEvent) : Decidable (s.Sequential e) :=
  match e with
  | .snapshot _ => decidable_of_iff (s.pending.isEmpty = true) List.isEmpty_iff
  | .snapshotError => .isTrue trivial
  | .complete _ _ => .isTrue trivial

def emptyRealm (c : RealmClass) : SyncState c := ⟨Table.empty, [], none⟩

theorem init_emptyRealm (c : RealmClass) (isURL : String → Bool) :
    (sync c isURL).init (emptyRealm c) := ⟨List.nodup_nil, rfl, rfl⟩

def discontDocument (id : String) : Document :=
  ⟨id, [("name", .string "spring"), ("imageURL", .string "https://images/spring")]⟩

/-- Two passes one after the other: a discont is fetched, and replaced by two others. -/
theorem converged_replaced : ∃ s : SyncState discontClass,
    (sync discontClass (fun url => !url.isEmpty)).Reach
      (fun s e => s.WellFormed (fun url => !url.isEmpty) e ∧ s.Sequential e) s ∧
    s.ids = ["third", "second"] ∧ s.Converged := by
  have hrun : ((sync discontClass (fun url => !url.isEmpty)).execWhere
      (fun s e => s.WellFormed (fun url => !url.isEmpty) e ∧ s.Sequential e)
      (emptyRealm discontClass)
      [.snapshot [discontDocument "first"], .complete 0 (.bytes [1] true),
        .snapshot [discontDocument "second", discontDocument "third"],
        .complete 1 (.bytes [3] true), .complete 0 (.bytes [2] true)]).map (·.ids)
      = some ["third", "second"] := by decide
  obtain ⟨s, hs, hids⟩ := Option.map_eq_some_iff.mp hrun
  have hreach := EventMachine.reach_of_execWhere _ (init_emptyRealm _ _) hs
  exact ⟨s, hreach, hids, (converged_of_reach .discont _ s hreach).1⟩

/-- **The duplicate.** Two passes are processed before the download that the first one starts is
through: both find no object, and the record is inserted twice. -/
theorem not_converged : ¬ ∀ (k : SyncClass) (isURL : String → Bool) (s : SyncState k.realmClass),
    (sync k.realmClass isURL).Reach (fun s e => s.WellFormed isURL e) s → s.Converged := by
  intro hall
  have hrun : ((sync discontClass (fun url => !url.isEmpty)).execWhere
      (fun s e => s.WellFormed (fun url => !url.isEmpty) e) (emptyRealm discontClass)
      [.snapshot [discontDocument "first"], .snapshot [discontDocument "first"],
        .complete 0 (.bytes [1] true), .complete 0 (.bytes [1] true)]).map
        (fun s => (s.ids, s.pendingIds, s.snapshot))
      = some (["first", "first"], [], some [discontDocument "first"]) := by decide
  obtain ⟨s, hs, hend⟩ := Option.map_eq_some_iff.mp hrun
  simp only [Prod.mk.injEq] at hend
  obtain ⟨hids, hpending, hsnapshot⟩ := hend
  have hreach := EventMachine.reach_of_execWhere _ (init_emptyRealm _ _) hs
  have hperm : s.ids.Perm ["first"] :=
    hall .discont _ s hreach (List.map_eq_nil_iff.mp hpending) _ hsnapshot
  rw [hids] at hperm
  exact absurd hperm.length_eq (by decide)

end Flamingo
