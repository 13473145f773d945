import Flamingo.DBManager.Passes
import Flamingo.DBManager.FirebaseManager

set_option autoImplicit false

/-! # Records that a pass keeps

A master that has changed is deleted when its document is processed, and comes back with its
download. The record is lost if the download fails. The other three classes never delete an object
whose document is there.
-/

namespace Flamingo

namespace SyncState

variable {c : RealmClass} {isURL : String → Bool}

/-! ## The downloads of a pass -/

/-- The downloads end, in any order, each with an outcome of its own. -/
def settle (isURL : String → Bool) (t : SyncState c) (downloads : List (Nat × Download)) :
    Option (SyncState c) :=
  (sync c isURL).exec t (downloads.map (fun x => .complete x.1 x.2))

/-- The ids of the documents whose downloads succeed. -/
def fetched : List Document → List (Nat × Download) → List String
  | _, [] => []
  | pending, (i, download) :: downloads =>
      (if download.succeeded then (pending[i]?.map (·.documentID)).toList else []) ++
        fetched (pending.eraseIdx i) downloads

/-- A pass as a whole: the snapshot is processed, and its downloads end. -/
structure Pass (isURL : String → Bool) (s : SyncState c) (documents : List Document)
    (downloads : List (Nat × Download)) where
  processed : SyncState c
  settled : SyncState c
  processSnapshot_eq : s.processSnapshot isURL documents = some processed
  settle_eq : processed.settle isURL downloads = some settled
  pending_eq : settled.pending = []

/-- A stored object has the id, and no document that finds it differs from it. -/
def Unchanged (s : SyncState c) (documents : List Document) (id : String) : Prop :=
  ∃ o ∈ s.table.objects, c.id o.2 = id ∧ ∀ d ∈ documents, replaced d o = false

/-- Settled downloads add the ids of the documents that were fetched. -/
theorem ids_settle (downloads : List (Nat × Download)) {t s' : SyncState c}
    (h : t.settle isURL downloads = some s') : s'.ids = t.ids ++ fetched t.pending downloads := by
  -- induction on the downloads, each of which takes its document off the list
  induction downloads generalizing t with
  | nil =>
      obtain rfl := Option.some.inj h
      rw [fetched, List.append_nil]
  | cons x downloads ih =>
      obtain ⟨i, download⟩ := x
      obtain ⟨u, hone, hrest⟩ := Option.bind_eq_some_iff.mp h
      replace hone : t.complete i download = some u := hone
      obtain ⟨d, hd, hpending, -, hcase⟩ := complete_eq_some hone
      rw [ih hrest, hpending, fetched]
      rcases hcase with ⟨data, rfl, htable⟩ | ⟨hfailed, htable⟩
      · -- the object of the document is added
        rw [ids, htable, hd]
        simp only [ids, Table.saveObjectRealm, List.map_append, List.map_singleton, c.id_init,
          Download.succeeded, if_true, Option.map_some, Option.toList_some, List.append_assoc]
      · rw [ids, htable, hfailed]
        simp only [Bool.false_eq_true, if_false, List.nil_append, ids]

/-- After the snapshot, a document's record is stored if an object of its id was unchanged. -/
theorem mem_ids_processSnapshot {s t : SyncState c} {documents : List Document} {id : String}
    (h : s.processSnapshot isURL documents = some t)
    (hdoc : id ∈ documents.map (·.documentID)) : id ∈ t.ids ↔ s.Unchanged documents id := by
  rw [ids, List.mem_map]
  constructor
  · rintro ⟨o, ho, rfl⟩
    obtain ⟨hmem, hkept, -⟩ := (mem_processSnapshot h).mp ho
    exact ⟨o, hmem, rfl, hkept⟩
  · rintro ⟨o, hmem, rfl, hkept⟩
    exact ⟨o, (mem_processSnapshot h).mpr ⟨hmem, hkept, hdoc⟩, rfl⟩

/-- Where no object is ever changed, a stored record is unchanged. -/
theorem unchanged_of_mem_ids (hsame : ∀ object data, c.changed object data = some false)
    {s : SyncState c} (documents : List Document) {id : String} (h : id ∈ s.ids) :
    s.Unchanged documents id := by
  obtain ⟨o, ho, rfl⟩ := List.mem_map.mp h
  exact ⟨o, ho, rfl, fun d _ => replaced_of_never_changed hsame d o⟩

end SyncState

/-- Only masters are compared with their documents. -/
theorem changed_of_ne_master {normal : String → String} {k : SyncClass} (hk : k ≠ .master)
    (object : (k.realmClassUpTo normal).Object) (data : DocData) :
    (k.realmClassUpTo normal).changed object data = some false := by
  cases k with
  | discont => rfl
  | category => rfl
  | master => exact absurd rfl hk
  | service => rfl

/-! ## The pass -/

/-- **A stored record whose document is in the snapshot** is stored after the pass exactly if it is
no master, or one of its objects was unchanged, or one of its downloads succeeds. -/
theorem recordKept_iff (normal : String → String) (k : SyncClass) (isURL : String → Bool)
    (s : SyncState (k.realmClassUpTo normal)) (documents : List Document) (downloads : List (Nat × Download))
    (pass : s.Pass isURL documents downloads) (id : String) (hstored : id ∈ s.ids)
    (hdoc : id ∈ documents.map (·.documentID)) :
    id ∈ pass.settled.ids ↔ k ≠ .master ∨ s.Unchanged documents id ∨
      id ∈ SyncState.fetched pass.processed.pending downloads := by
  rw [SyncState.ids_settle downloads pass.settle_eq, List.mem_append,
    SyncState.mem_ids_processSnapshot pass.processSnapshot_eq hdoc]
  constructor
  · exact Or.inr
  · rintro (hk | hkept)
    · -- the other classes are not compared with their documents
      exact Or.inl (SyncState.unchanged_of_mem_ids (changed_of_ne_master hk) documents hstored)
    · exact hkept

/-- Realm holds one master. -/
def oneMaster : SyncState masterClass where
  table := Table.empty.saveObjectRealm
    { id := "1", name := "Anna", imageURL := "https://images/anna", image := some [1] }
  pending := []
  snapshot := none

/-- Its document, with another name. -/
def renamedMaster : Document :=
  ⟨"1", saveMasterToFirebase { name := "Anna Maria", imageURL := "https://images/anna" }⟩

/-- The pass over the renamed master, whose download has the outcome. -/
theorem exists_renamed_pass (download : Download) :
    ∃ pass : oneMaster.Pass (fun _ => true) [renamedMaster] [(0, download)],
      pass.processed.pending = [renamedMaster] ∧ pass.processed.ids = [] := by
  have hprocessed : (oneMaster.processSnapshot (fun _ => true) [renamedMaster]).map
      (fun t => (t.pending, t.ids)) = some ([renamedMaster], []) := by decide
  obtain ⟨t, ht, hend⟩ := Option.map_eq_some_iff.mp hprocessed
  obtain ⟨hpending, hids⟩ := Prod.mk.inj hend
  have hsettled : ∃ s', t.settle (fun _ => true) [(0, download)] = some s' ∧ s'.pending = [] := by
    simp only [SyncState.settle, List.map_cons, List.map_nil, EventMachine.exec, sync,
      SyncState.step, SyncState.complete, hpending, List.getElem?_cons_zero,
      List.eraseIdx_cons_zero, Option.bind_eq_bind, Option.bind_some]
    cases download with
    | failed => exact ⟨_, rfl, rfl⟩
    | bytes data image => cases image <;> exact ⟨_, rfl, rfl⟩
  obtain ⟨s', hs', hdone⟩ := hsettled
  exact ⟨⟨t, s', ht, hs', hdone⟩, hpending, hids⟩

theorem recordKept_refetched :
    ∃ pass : oneMaster.Pass (fun _ => true) [renamedMaster] [(0, .bytes [1] true)],
      "1" ∈ pass.settled.ids := by
  obtain ⟨pass, hpending, -⟩ := exists_renamed_pass (.bytes [1] true)
  refine ⟨pass, (recordKept_iff id .master _ _ _ _ pass "1" (by decide) (by decide)).mpr
    (Or.inr (Or.inr ?_))⟩
  rw [hpending]
  decide

/-- **The lost master.** Its document has another name, so the object is deleted, and the download
fails. -/
theorem not_recordKept : ¬ ∀ (normal : String → String) (k : SyncClass) (isURL : String → Bool)
    (s : SyncState (k.realmClassUpTo normal)) (documents : List Document) (downloads : List (Nat × Download))
    (pass : s.Pass isURL documents downloads), ∀ id ∈ s.ids,
      id ∈ documents.map (·.documentID) → id ∈ pass.settled.ids := by
  intro hall
  obtain ⟨pass, hpending, hids⟩ := exists_renamed_pass .failed
  have hkept : "1" ∈ pass.settled.ids :=
    hall id .master _ oneMaster _ _ pass "1" (by decide) (by decide)
  have hsettled := SyncState.ids_settle _ pass.settle_eq
  rw [hids, hpending] at hsettled
  rw [hsettled] at hkept
  exact absurd hkept (by decide)

end Flamingo
