import Flamingo.DBManager.Passes
import Flamingo.DBManager.FirebaseManager

set_option autoImplicit false

/-! # Exact ids

The loop over the documents looks for objects with `id CONTAINS[c] documentID`, the removal of the
old objects compares ids for equality. `processDocumentExactly` is what the loop is for: it looks at
the objects with exactly the id of the document. The two are the same as long as an id that merely
contains the document's makes no difference.
-/

namespace Flamingo

namespace SyncState

variable {c : RealmClass} {isURL : String → Bool}

/-! ## The purpose of the loop -/

/-- The objects among these with exactly the id of a document. -/
def exactAmong (objects : List (Nat × c.Object)) (d : Document) : List (Nat × c.Object) :=
  objects.filter (fun o => c.id o.2 == d.documentID)

/-- The body of the loop, with identity of the ids. -/
def processDocumentExactly (isURL : String → Bool) (s : SyncState c) (d : Document) :
    Option (SyncState c) :=
  if (exactAmong s.table.objects d).length = 0 then s.saveDataToRealm isURL d
  else (exactAmong s.table.objects d).foldlM (updateObject isURL d) s

theorem processDocumentExactly_guard (s : SyncState c) (d : Document) :
    s.processDocumentExactly isURL d
      = if acceptsAll isURL d (exactAmong s.table.objects d) then
          some (afterFound d (exactAmong s.table.objects d) s) else none :=
  processFound_guard d (exactAmong s.table.objects d) s

/-- The body of the loop as it is, in the same form. -/
theorem processDocument_guard_found (s : SyncState c) (d : Document) :
    s.processDocument isURL d
      = if acceptsAll isURL d (foundAmong s.table.objects d) then
          some (afterFound d (foundAmong s.table.objects d) s) else none :=
  processFound_guard d (foundAmong s.table.objects d) s

theorem mem_exactAmong {objects : List (Nat × c.Object)} {d : Document} {o : Nat × c.Object} :
    o ∈ exactAmong objects d ↔ o ∈ objects ∧ c.id o.2 = d.documentID := by
  rw [exactAmong, List.mem_filter, beq_iff_eq]

theorem exactAmong_subset (objects : List (Nat × c.Object)) (d : Document) :
    exactAmong objects d ⊆ foundAmong objects d := by
  intro o ho
  obtain ⟨hmem, hid⟩ := mem_exactAmong.mp ho
  refine List.mem_filter.mpr ⟨hmem, ?_⟩
  rw [hid]
  exact Text.containsC_self _

/-- The objects with exactly the id are found among those that are found. -/
theorem exactAmong_foundAmong (objects : List (Nat × c.Object)) (d : Document) :
    (foundAmong objects d).filter (fun o => c.id o.2 == d.documentID) = exactAmong objects d := by
  rw [foundAmong, List.filter_filter, exactAmong]
  apply List.filter_congr
  intro o _
  by_cases hid : c.id o.2 = d.documentID
  · rw [hid, Text.containsC_self, Bool.and_true]
  · rw [beq_eq_false_iff_ne.mpr hid, Bool.false_and]

/-- With identity of the ids, an object of another id is never deleted. -/
theorem mem_of_processDocumentExactly {s s' : SyncState c} {d : Document} {o : Nat × c.Object}
    (h : s.processDocumentExactly isURL d = some s') (ho : o ∈ s.table.objects)
    (hid : c.id o.2 ≠ d.documentID) : o ∈ s'.table.objects := by
  rw [processDocumentExactly_guard] at h
  split_ifs at h
  obtain rfl := Option.some.inj h
  unfold afterFound
  split_ifs
  · exact ho
  · have hdelete := Table.objects_foldl_delete (fun x => c.changed x d.data == some true)
      (exactAmong s.table.objects d) s.table
    rw [table_foldl_update]
    refine (congrArg (o ∈ ·) hdelete).mpr (List.mem_filter.mpr ⟨ho, ?_⟩)
    rw [Bool.not_eq_true', List.any_eq_false]
    intro o' ho' hdeleted
    obtain ⟨hmem, hid'⟩ := mem_exactAmong.mp ho'
    rw [Bool.and_eq_true] at hdeleted
    -- only a key of an object with the document's id is deleted
    rw [List.inj_on_of_nodup_map s.table.nodup ho hmem (beq_iff_eq.mp hdeleted.2)] at hid
    exact hid hid'

/-! ## The condition -/

/-- An object that a document finds although its id is another one. -/
def Confusable (d : Document) (o : Nat × c.Object) : Prop :=
  Text.containsC (c.id o.2) d.documentID = true ∧ c.id o.2 ≠ d.documentID

/-- The objects of other ids that the document finds are as the document says, and if there is one
there is also an object of exactly its id, or nothing to download. -/
def Unnoticed (objects : List (Nat × c.Object)) (d : Document) : Prop :=
  (∀ o ∈ objects, Confusable d o → c.changed o.2 d.data = some false) ∧
  ((∀ o ∈ objects, ¬ Confusable d o) ∨ (∃ o ∈ objects, c.id o.2 = d.documentID) ∨
    d.data.string? "imageURL" = none)

/-- The document traps anyway, and with an object of another id as well. -/
def TrapsAnyway (isURL : String → Bool) (objects : List (Nat × c.Object)) (d : Document) : Prop :=
  (∃ o ∈ objects, Confusable d o ∧ c.changed o.2 d.data ≠ some false) ∧
  (((∀ o ∈ objects, c.id o.2 ≠ d.documentID) ∧ urlAccepted isURL d = false) ∨
    ∃ o ∈ objects, c.id o.2 = d.documentID ∧ comparable c isURL d o = false)

def Unconfused (isURL : String → Bool) (objects : List (Nat × c.Object)) (d : Document) : Prop :=
  Unnoticed objects d ∨ TrapsAnyway isURL objects d

theorem exactAmong_eq_nil {objects : List (Nat × c.Object)} {d : Document} :
    exactAmong objects d = [] ↔ ∀ o ∈ objects, c.id o.2 ≠ d.documentID := by
  rw [exactAmong, List.filter_eq_nil_iff]
  refine forall₂_congr (fun o _ => ?_)
  rw [beq_iff_eq]

/-- Where the body of the loop traps, with identity of the ids. -/
theorem acceptsAll_exact_eq_false {objects : List (Nat × c.Object)} {d : Document} :
    acceptsAll isURL d (exactAmong objects d) = false ↔
      ((∀ o ∈ objects, c.id o.2 ≠ d.documentID) ∧ urlAccepted isURL d = false) ∨
        ∃ o ∈ objects, c.id o.2 = d.documentID ∧ comparable c isURL d o = false := by
  rw [← exactAmong_eq_nil, acceptsAll]
  split_ifs with hnone
  · have hnil := List.eq_nil_of_length_eq_zero hnone
    constructor
    · exact fun hurl => Or.inl ⟨hnil, hurl⟩
    · rintro (⟨-, hurl⟩ | ⟨o, ho, hid, -⟩)
      · exact hurl
      · have hmem := mem_exactAmong.mpr ⟨ho, hid⟩
        rw [hnil] at hmem
        cases hmem
  · rw [List.all_eq_false]
    constructor
    · rintro ⟨o, ho, htraps⟩
      obtain ⟨hmem, hid⟩ := mem_exactAmong.mp ho
      exact Or.inr ⟨o, hmem, hid, by simpa using htraps⟩
    · rintro (⟨hnil, -⟩ | ⟨o, ho, hid, htraps⟩)
      · exact absurd (by rw [hnil, List.length_nil]) hnone
      · exact ⟨o, mem_exactAmong.mpr ⟨ho, hid⟩, by simpa using htraps⟩

/-! ## One document -/

/-- Objects that do not differ are passed over. -/
theorem foldl_update_filter (d : Document) (p : Nat × c.Object → Bool) (l : List (Nat × c.Object))
    (s : SyncState c) (h : ∀ o ∈ l, p o = false → differs c d o = false) :
    l.foldl (update d) s = (l.filter p).foldl (update d) s := by
  -- induction on the objects: one that is passed over leaves the state as it is
  induction l generalizing s with
  | nil => rfl
  | cons o l ih =>
      have hrest := fun s' => ih s' (fun o' ho' => h o' (List.mem_cons_of_mem _ ho'))
      rw [List.foldl_cons, List.filter_cons]
      by_cases hp : p o = true
      · rw [if_pos hp, List.foldl_cons]
        exact hrest _
      · have hsame := h o List.mem_cons_self (by simpa using hp)
        rw [if_neg hp, update, hsame, if_neg Bool.false_ne_true]
        exact hrest s

/-- Objects of other ids that are as the document says make no difference, if there is one of the
document's id. -/
theorem processDocument_eq_of_exact {s : SyncState c} {d : Document}
    (hsame : ∀ o ∈ s.table.objects, Confusable d o → c.changed o.2 d.data = some false)
    (hexact : exactAmong s.table.objects d ≠ []) :
    s.processDocument isURL d = s.processDocumentExactly isURL d := by
  have hfound : foundAmong s.table.objects d ≠ [] := by
    obtain ⟨o, ho⟩ := List.exists_mem_of_ne_nil _ hexact
    exact List.ne_nil_of_mem (exactAmong_subset _ _ ho)
  have hother : ∀ o ∈ foundAmong s.table.objects d, (c.id o.2 == d.documentID) = false →
      c.changed o.2 d.data = some false := by
    intro o ho hid
    obtain ⟨hmem, hcontains⟩ := List.mem_filter.mp ho
    exact hsame o hmem ⟨hcontains, beq_eq_false_iff_ne.mp hid⟩
  have haccepts : acceptsAll isURL d (foundAmong s.table.objects d)
      = acceptsAll isURL d (exactAmong s.table.objects d) := by
    rw [acceptsAll_of_ne_nil hfound, acceptsAll_of_ne_nil hexact, ← exactAmong_foundAmong,
      List.all_filter, Bool.eq_iff_iff, List.all_eq_true, List.all_eq_true]
    refine forall₂_congr (fun o ho => ?_)
    cases hid : (c.id o.2 == d.documentID) with
    | true => simp
    | false => simp [comparable, hother o ho hid]
  have hafter : afterFound d (foundAmong s.table.objects d) s
      = afterFound d (exactAmong s.table.objects d) s := by
    rw [afterFound_of_ne_nil hfound, afterFound_of_ne_nil hexact, ← exactAmong_foundAmong]
    refine foldl_update_filter d _ _ s (fun o ho hid => ?_)
    rw [differs, hother o ho hid]
    rfl
  rw [processDocument_guard_found, processDocumentExactly_guard, haccepts, hafter]

/-- If nothing but objects of other ids is found, the download is not started. -/
theorem processDocument_of_confused {s : SyncState c} {d : Document}
    (hsame : ∀ o ∈ s.table.objects, Confusable d o → c.changed o.2 d.data = some false)
    (hexact : exactAmong s.table.objects d = []) (hfound : foundAmong s.table.objects d ≠ []) :
    s.processDocument isURL d = some s := by
  have hother : ∀ o ∈ foundAmong s.table.objects d, c.changed o.2 d.data = some false := by
    intro o ho
    obtain ⟨hmem, hcontains⟩ := List.mem_filter.mp ho
    exact hsame o hmem ⟨hcontains, exactAmong_eq_nil.mp hexact o hmem⟩
  have haccepts : acceptsAll isURL d (foundAmong s.table.objects d) = true := by
    rw [acceptsAll_of_ne_nil hfound, List.all_eq_true]
    intro o ho
    rw [comparable, hother o ho]
  have hafter : afterFound d (foundAmong s.table.objects d) s = s := by
    have hsame' : ∀ o ∈ foundAmong s.table.objects d, false = false → differs c d o = false := by
      intro o ho _
      rw [differs, hother o ho]
      rfl
    rw [afterFound_of_ne_nil hfound, foldl_update_filter d (fun _ => false) _ s hsame',
      List.filter_false, List.foldl_nil]
  rw [processDocument_guard_found, haccepts, if_pos rfl, hafter]

/-- Without a difference of the ids there is nothing to confuse. -/
theorem foundAmong_eq_exactAmong {objects : List (Nat × c.Object)} {d : Document}
    (h : ∀ o ∈ objects, ¬ Confusable d o) : foundAmong objects d = exactAmong objects d := by
  apply List.filter_congr
  intro o ho
  rw [Bool.eq_iff_iff, beq_iff_eq]
  constructor
  · intro hcontains
    by_contra hid
    exact h o ho ⟨hcontains, hid⟩
  · intro hid
    rw [hid]
    exact Text.containsC_self _

/-- There is nothing to save exactly if there is no image URL. -/
theorem saveDataToRealm_eq_self_iff {s : SyncState c} {d : Document} :
    some s = s.saveDataToRealm isURL d ↔ d.data.string? "imageURL" = none := by
  unfold saveDataToRealm
  cases d.data.string? "imageURL" with
  | none => simp
  | some imageURL =>
      refine iff_of_false ?_ nofun
      intro heq
      cases hurl : isURL imageURL with
      | false => simp [hurl] at heq
      | true =>
          simp only [hurl, if_true, Option.some.injEq] at heq
          have hlength := congrArg (fun t : SyncState c => t.pending.length) heq
          simp at hlength

/-- As long as the objects of other ids are as the document says, what matters is whether the
document is taken for stored. -/
theorem processDocument_eq_iff_of_same {s : SyncState c} {d : Document}
    (hsame : ∀ o ∈ s.table.objects, Confusable d o → c.changed o.2 d.data = some false) :
    s.processDocument isURL d = s.processDocumentExactly isURL d ↔
      (∀ o ∈ s.table.objects, ¬ Confusable d o) ∨
        (∃ o ∈ s.table.objects, c.id o.2 = d.documentID) ∨ d.data.string? "imageURL" = none := by
  by_cases hconfused : ∀ o ∈ s.table.objects, ¬ Confusable d o
  · refine iff_of_true ?_ (Or.inl hconfused)
    rw [processDocument_guard_found, processDocumentExactly_guard, foundAmong_eq_exactAmong hconfused]
  · by_cases hexact : exactAmong s.table.objects d = []
    · -- the document is taken for stored, so it is not fetched
      have hnone := exactAmong_eq_nil.mp hexact
      have hfound : foundAmong s.table.objects d ≠ [] := by
        push Not at hconfused
        obtain ⟨o, ho, hcontains, -⟩ := hconfused
        exact List.ne_nil_of_mem (List.mem_filter.mpr ⟨ho, hcontains⟩)
      rw [processDocument_of_confused hsame hexact hfound, processDocumentExactly, hexact,
        if_pos List.length_nil, saveDataToRealm_eq_self_iff, or_iff_right hconfused, or_iff_right]
      rintro ⟨o, ho, hid⟩
      exact hnone o ho hid
    · -- the document is stored, and the others are passed over
      refine iff_of_true (processDocument_eq_of_exact hsame hexact) (Or.inr (Or.inl ?_))
      obtain ⟨o, ho⟩ := List.exists_mem_of_ne_nil _ hexact
      exact ⟨o, mem_exactAmong.mp ho⟩

/-- An object of another id that is found and not as the document says is deleted, or the comparison
with it traps. -/
theorem not_mem_of_processDocument {s s' : SyncState c} {d : Document} {o : Nat × c.Object}
    (h : s.processDocument isURL d = some s') (ho : o ∈ s.table.objects)
    (hfound : Text.containsC (c.id o.2) d.documentID = true)
    (hchanged : c.changed o.2 d.data ≠ some false) : o ∉ s'.table.objects := by
  have hmem : o ∈ foundAmong s.table.objects d := List.mem_filter.mpr ⟨ho, hfound⟩
  rw [processDocument_guard] at h
  split_ifs at h with hloop
  obtain rfl := Option.some.inj h
  rw [accepts, acceptsAll_of_ne_nil (List.ne_nil_of_mem hmem), List.all_eq_true] at hloop
  have hdiffers : differs c d o = true := by
    by_contra hsame
    exact hchanged (changed_of_comparable (hloop o hmem) (Bool.eq_false_of_not_eq_true hsame))
  rw [objects_afterDocument, List.mem_filter, replaced, hfound, hdiffers]
  simp

/-- If there is such an object, a document that traps with identity of the ids traps all the
same. -/
theorem accepts_eq_false {objects : List (Nat × c.Object)} {d : Document} {o : Nat × c.Object}
    (ho : o ∈ objects) (hfound : Text.containsC (c.id o.2) d.documentID = true)
    (hchanged : c.changed o.2 d.data ≠ some false)
    (htraps : acceptsAll isURL d (exactAmong objects d) = false) :
    accepts isURL objects d = false := by
  have hmem : o ∈ foundAmong objects d := List.mem_filter.mpr ⟨ho, hfound⟩
  rw [accepts, acceptsAll_of_ne_nil (List.ne_nil_of_mem hmem), List.all_eq_false]
  rcases acceptsAll_exact_eq_false.mp htraps with ⟨-, hurl⟩ | ⟨o', ho', hid, htrap⟩
  · -- the document is saved in either case, for want of an object or for the difference
    refine ⟨o, hmem, ?_⟩
    rw [comparable]
    cases hcase : c.changed o.2 d.data with
    | none => exact Bool.false_ne_true
    | some changed =>
        cases changed with
        | true => simpa using hurl
        | false => exact absurd hcase hchanged
  · refine ⟨o', exactAmong_subset _ _ (mem_exactAmong.mpr ⟨ho', hid⟩), ?_⟩
    simpa using htrap

/-- **One document**: the body of the loop does what it is for exactly if the objects of other ids
make no difference. -/
theorem processDocument_eq_iff (s : SyncState c) (d : Document) :
    s.processDocument isURL d = s.processDocumentExactly isURL d ↔
      Unconfused isURL s.table.objects d := by
  by_cases hsame : ∀ o ∈ s.table.objects, Confusable d o → c.changed o.2 d.data = some false
  · have hno : ¬ TrapsAnyway isURL s.table.objects d := by
      rintro ⟨⟨o, ho, hconfusable, hchanged⟩, -⟩
      exact hchanged (hsame o ho hconfusable)
    rw [Unconfused, or_iff_left hno, Unnoticed, and_iff_right hsame]
    exact processDocument_eq_iff_of_same hsame
  · have hno : ¬ Unnoticed s.table.objects d := fun h => hsame h.1
    push Not at hsame
    obtain ⟨o, ho, hconfusable, hchanged⟩ := hsame
    rw [Unconfused, or_iff_right hno, TrapsAnyway, ← acceptsAll_exact_eq_false,
      and_iff_right ⟨o, ho, hconfusable, hchanged⟩]
    constructor
    · intro heq
      by_contra haccepts
      rw [Bool.not_eq_false] at haccepts
      -- the object of another id is deleted by the loop and kept by what the loop is for
      have hexactly : s.processDocumentExactly isURL d = _ := processDocumentExactly_guard s d
      rw [if_pos haccepts] at hexactly
      exact not_mem_of_processDocument (heq.trans hexactly) ho hconfusable.1 hchanged
        (mem_of_processDocumentExactly hexactly ho hconfusable.2)
    · intro htraps
      rw [processDocument_guard, processDocumentExactly_guard, htraps,
        accepts_eq_false ho hconfusable.1 hchanged htraps, if_neg Bool.false_ne_true,
        if_neg Bool.false_ne_true]

/-! ## A pass -/

/-- Each document of a pass that the loop comes to is worked off with identity of the ids, and the
objects that are deleted in the end are those whose id is no document id. -/
def ExactId (isURL : String → Bool) (s : SyncState c) (documents : List Document) : Prop :=
  (∀ before d after t, documents = before ++ d :: after →
    before.foldlM (processDocument isURL) s = some t →
    t.processDocument isURL d = t.processDocumentExactly isURL d) ∧
  ∀ t, documents.foldlM (processDocument isURL) s = some t →
    ∀ o, o ∈ (t.removeOld (documents.map (·.documentID))).table.objects ↔
      o ∈ t.table.objects ∧ c.id o.2 ∈ documents.map (·.documentID)

end SyncState

/-- **A pass identifies records by their exact ids** if and only if no document that it comes to is
confused by the objects that the documents before have left. -/
theorem exactId_iff (k : SyncClass) (isURL : String → Bool) (s : SyncState k.realmClass)
    (documents : List Document) :
    s.ExactId isURL documents ↔ ∀ before d after, documents = before ++ d :: after →
      (before.foldlM (SyncState.processDocument isURL) s).isSome →
      SyncState.Unconfused isURL (SyncState.leftBy before s.table.objects) d := by
  have hremove : ∀ t, documents.foldlM (SyncState.processDocument isURL) s = some t →
      ∀ o, o ∈ (t.removeOld (documents.map (·.documentID))).table.objects ↔
        o ∈ t.table.objects ∧ k.realmClass.id o.2 ∈ documents.map (·.documentID) := by
    intro t _ o
    rw [SyncState.objects_removeOld, List.mem_filter, List.contains_iff_mem]
  rw [SyncState.ExactId, and_iff_left hremove]
  constructor
  · intro h before d after hsplit hsome
    obtain ⟨t, ht⟩ := Option.isSome_iff_exists.mp hsome
    rw [← (SyncState.processDocuments_effect ht).1]
    exact (SyncState.processDocument_eq_iff t d).mp (h before d after t hsplit ht)
  · intro h before d after t hsplit ht
    refine (SyncState.processDocument_eq_iff t d).mpr ?_
    rw [(SyncState.processDocuments_effect ht).1]
    exact h before d after hsplit (by rw [ht]; rfl)

/-- A discont whose id contains another id. -/
def offspring : SyncState discontClass where
  table := Table.empty.saveObjectRealm { id := "offspring" }
  pending := []
  snapshot := none

/-- **The discont that is not fetched.** No stored object has its id, but one has an id that
contains it. -/
theorem not_exactId : ¬ ∀ (k : SyncClass) (isURL : String → Bool) (s : SyncState k.realmClass)
    (documents : List Document), s.ExactId isURL documents := by
  intro hall
  have hexact : offspring.ExactId (fun _ => true)
      [⟨"spring", saveDiscontToFirebase { imageURL := "https://spring" }⟩] :=
    hall .discont _ offspring _
  have hstep := hexact.1 [] _ [] offspring rfl rfl
  have hpending := congrArg (fun t => t.map (·.pendingIds)) hstep
  exact absurd hpending (by decide)

end Flamingo
