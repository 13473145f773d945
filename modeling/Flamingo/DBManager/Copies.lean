import Flamingo.Lib.Prefixes
import Flamingo.DBManager.KeptRecords

set_option autoImplicit false

/-! # Copies of a record

A pass looks for an object of a document and starts a download if there is none; the object is added
when the download ends, without another look. So a record has as many copies as there were passes
between the first look and the first insertion, and as long as its document exists no pass takes one
of them away again, nor does one start another download. Masters apart, the number of copies and of
downloads of a record is a function of the passes and the ends of the downloads (`copies_step`).
-/

namespace Flamingo

namespace SyncState

variable {c : RealmClass} {isURL : String → Bool}

/-- The stored objects with an id, and the downloads of its document. -/
def copies (d : String) (s : SyncState c) : Nat := s.ids.count d

def loading (d : String) (s : SyncState c) : Nat := s.pendingIds.count d

/-- Some object is found for an id. -/
def isFound (s : SyncState c) (d : String) : Bool :=
  s.table.objects.any (fun o => Text.containsC (c.id o.2) d)

/-- The documents of an id whose download `saveData…ToRealm` starts. -/
def fetches (d : String) (documents : List Document) : Nat :=
  ((documents.flatMap started).map (·.documentID)).count d

theorem isFound_of_copies {s : SyncState c} {d : String} (h : 0 < s.copies d) :
    s.isFound d = true := by
  obtain ⟨o, ho, hid⟩ := List.mem_map.mp (List.count_pos_iff.mp h)
  rw [isFound, List.any_eq_true]
  refine ⟨o, ho, ?_⟩
  rw [hid]
  exact Text.containsC_self d

/-! ## A pass -/

theorem pending_afterDocument_of_never_changed
    (hsame : ∀ object data, c.changed object data = some false) (s : SyncState c) (x : Document) :
    (s.afterDocument x).pending
      = s.pending ++ if s.isFound x.documentID then [] else started x := by
  have hfound : s.isFound x.documentID = true ↔ (s.found x).length ≠ 0 := by
    rw [isFound, List.any_eq_true, ne_eq, List.length_eq_zero_iff, found, List.filter_eq_nil_iff]
    simp
  unfold afterDocument afterFound
  split_ifs with hnone hsome hsome
  · exact absurd hnone (hfound.mp hsome)
  · rfl
  · -- the objects that are found are left as they are
    have hsamefound : (s.found x).filter (differs c x) = [] := by
      apply List.filter_eq_nil_iff.mpr
      intro o _
      rw [differs, hsame]
      exact Bool.false_ne_true
    rw [pending_foldl_update, hsamefound, List.flatMap_nil]
  · exact absurd (hfound.mpr hnone) hsome

/-- **A pass** starts the downloads of the documents for which no object is found. -/
theorem pending_processSnapshot (hsame : ∀ object data, c.changed object data = some false)
    {s s' : SyncState c} {documents : List Document}
    (h : s.processSnapshot isURL documents = some s') :
    s'.pending = s.pending ++
      documents.flatMap (fun x => if s.isFound x.documentID then [] else started x) := by
  obtain ⟨t, hloop, rfl⟩ := processSnapshot_eq_some.mp h
  have hinv : t.table.objects = s.table.objects ∧ t.pending = s.pending ++
      documents.flatMap (fun x => if s.isFound x.documentID then [] else started x) := by
    refine OptionFold.foldlM_invariant (fun before u => u.table.objects = s.table.objects ∧
      u.pending = s.pending ++
        before.flatMap (fun x => if s.isFound x.documentID then [] else started x)) ?_ ?_ hloop
    · exact ⟨rfl, by simp⟩
    · rintro before x after u u' - ⟨hobjects, hpending⟩ hone
      rw [processDocument_guard] at hone
      split_ifs at hone
      obtain rfl := Option.some.inj hone
      constructor
      · rw [objects_afterDocument, ← hobjects]
        apply List.filter_eq_self.mpr
        intro o _
        rw [replaced_of_never_changed hsame]
        rfl
      · have hfound : u.isFound x.documentID = s.isFound x.documentID := by
          rw [isFound, hobjects, isFound]
        rw [pending_afterDocument_of_never_changed hsame, hfound, hpending, List.append_assoc,
          List.flatMap_append, List.flatMap_singleton]
  exact hinv.2

theorem count_fetched (s : SyncState c) (d : String) (documents : List Document) :
    ((documents.flatMap (fun x => if s.isFound x.documentID then [] else started x)).map
      (·.documentID)).count d = if s.isFound d then 0 else fetches d documents := by
  induction documents with
  | nil => simp [fetches]
  | cons x documents ih =>
      -- the download of a document of another id is not counted
      have hother : x.documentID ≠ d → ((started x).map (·.documentID)).count d = 0 := by
        intro hne
        rw [List.count_eq_zero]
        intro hmem
        obtain ⟨y, hy, hid⟩ := List.mem_map.mp hmem
        exact hne (eq_of_mem_started hy ▸ hid)
      have hfetches : fetches d (x :: documents)
          = ((started x).map (·.documentID)).count d + fetches d documents := by
        rw [fetches, List.flatMap_cons, List.map_append, List.count_append, fetches]
      rw [List.flatMap_cons, List.map_append, List.count_append, ih, hfetches]
      by_cases hid : x.documentID = d
      · rw [hid]
        split_ifs <;> simp
      · rw [hother hid]
        split_ifs <;> simp [hother hid]

/-- **A pass** takes the copies if their document is missing, and looks once for each of its
documents. -/
theorem copies_processSnapshot (hsame : ∀ object data, c.changed object data = some false)
    {s s' : SyncState c} {documents : List Document} (d : String)
    (h : s.processSnapshot isURL documents = some s') :
    s'.copies d = (if d ∈ documents.map (·.documentID) then s.copies d else 0) ∧
      s'.loading d = s.loading d + if s.isFound d then 0 else fetches d documents := by
  constructor
  · have hids : s'.ids = s.ids.filter (fun x => (documents.map (·.documentID)).contains x) := by
      rw [ids, objects_processSnapshot h, leftBy_of_never_changed hsame, ids, List.filter_map]
      rfl
    rw [copies, hids]
    split_ifs with hdoc
    · exact List.count_filter (by simpa using hdoc)
    · rw [List.count_eq_zero]
      intro hmem
      exact hdoc (by simpa using (List.mem_filter.mp hmem).2)
  · rw [loading, pendingIds, pending_processSnapshot hsame h, List.map_append, List.count_append,
      count_fetched]
    rfl

/-! ## A download -/

/-- **A download** of another document changes neither number; a download of the record becomes a
copy or is lost. -/
theorem copies_complete {s s' : SyncState c} {i : Nat} {download : Download} (d : String)
    (h : s.complete i download = some s') :
    (s'.copies d = s.copies d ∧ s'.loading d = s.loading d) ∨
      (s'.loading d + 1 = s.loading d ∧
        s'.copies d = s.copies d + if download.succeeded then 1 else 0) := by
  obtain ⟨x, hx, hpending, -, hcase⟩ := complete_eq_some h
  have hperm : (x :: s'.pending).Perm s.pending := by
    obtain ⟨hlt, rfl⟩ := List.getElem?_eq_some_iff.mp hx
    rw [hpending]
    exact List.getElem_cons_eraseIdx_perm hlt
  have hcount : s.loading d = s'.loading d + if x.documentID = d then 1 else 0 := by
    have := (hperm.map (·.documentID)).count_eq d
    rw [List.map_cons, List.count_cons] at this
    simpa [loading, pendingIds] using this.symm
  have hids : s'.copies d
      = s.copies d + if x.documentID = d then (if download.succeeded then 1 else 0) else 0 := by
    rcases hcase with ⟨data, rfl, htable⟩ | ⟨hfailed, htable⟩
    · rw [copies, ids, htable, Table.saveObjectRealm, List.map_append, List.count_append,
        List.map_singleton, c.id_init, List.count_singleton]
      simp [copies, ids, Download.succeeded]
    · rw [copies, ids, htable, hfailed]
      simp [copies, ids]
  by_cases hid : x.documentID = d
  · rw [if_pos hid] at hcount hids
    exact Or.inr ⟨hcount.symm, hids⟩
  · rw [if_neg hid] at hcount hids
    exact Or.inl ⟨hids, hcount.symm⟩

/-! ## The properties -/

/-- A pass whose answer has the document. -/
def Documented (d : String) : SyncEvent → Prop
  | .snapshot documents => d ∈ documents.map (·.documentID)
  | _ => True

/-- The record has one copy, or one is being fetched, or none. -/
def AtMostOne (d : String) (s : SyncState c) : Prop := s.copies d + s.loading d ≤ 1

/-- A pass for which no object of the record is found starts the only download of it. -/
def FetchesAlone (d : String) (s : SyncState c) : SyncEvent → Prop
  | .snapshot documents => s.isFound d = false → s.loading d + fetches d documents ≤ 1
  | _ => True

instance (d : String) (s : SyncState c) (e : SyncEvent) : Decidable (s.FetchesAlone d e) :=
  match e with
  | .snapshot documents => inferInstanceAs
      (Decidable (s.isFound d = false → s.loading d + fetches d documents ≤ 1))
  | .snapshotError | .complete _ _ => .isTrue trivial

/-- **A step on a record that has a copy** leaves its copies, and starts no download of it. -/
theorem copies_step (hsame : ∀ object data, c.changed object data = some false)
    {s s' : SyncState c} {e : SyncEvent} {d : String} (hone : 0 < s.copies d)
    (hdoc : Documented d e) (h : s.step isURL e = some s') :
    s.copies d ≤ s'.copies d ∧ s'.copies d + s'.loading d ≤ s.copies d + s.loading d := by
  cases e with
  | snapshot documents =>
      obtain ⟨hcopies, hloading⟩ := copies_processSnapshot hsame d h
      replace hdoc : d ∈ documents.map (·.documentID) := hdoc
      rw [if_pos hdoc] at hcopies
      rw [isFound_of_copies hone, if_pos rfl] at hloading
      omega
  | snapshotError =>
      obtain rfl := Option.some.inj h
      exact ⟨Nat.le_refl _, Nat.le_refl _⟩
  | complete i download =>
      rcases copies_complete d h with ⟨hcopies, hloading⟩ | ⟨hloading, hcopies⟩
      · omega
      · split_ifs at hcopies <;> omega

theorem atMostOne_step (hsame : ∀ object data, c.changed object data = some false)
    {s s' : SyncState c} {e : SyncEvent} {d : String} (hi : s.AtMostOne d)
    (h : s.step isURL e = some s') : s'.AtMostOne d ↔ s.FetchesAlone d e := by
  unfold AtMostOne at hi ⊢
  cases e with
  | snapshot documents =>
      obtain ⟨hcopies, hloading⟩ := copies_processSnapshot hsame d h
      simp only [FetchesAlone]
      cases hfound : s.isFound d with
      | true =>
          -- whether the copies stay or go, nothing is started
          rw [hfound, if_pos rfl] at hloading
          refine iff_of_true ?_ nofun
          split_ifs at hcopies <;> omega
      | false =>
          have hnone : s.copies d = 0 := by
            by_contra hne
            rw [isFound_of_copies (Nat.pos_of_ne_zero hne)] at hfound
            cases hfound
          rw [hfound, if_neg Bool.false_ne_true] at hloading
          have hnone' : s'.copies d = 0 := by
            rw [hcopies, hnone, ite_self]
          rw [hnone', hloading, Nat.zero_add]
          exact ⟨fun hle _ => hle, fun himp => himp rfl⟩
  | snapshotError =>
      obtain rfl := Option.some.inj h
      exact iff_of_true hi trivial
  | complete i download =>
      refine iff_of_true ?_ trivial
      rcases copies_complete d h with ⟨hcopies, hloading⟩ | ⟨hloading, hcopies⟩
      · omega
      · split_ifs at hcopies <;> omega

end SyncState

/-- **Copies stay.** While the document of a record is in every answer, a record that has a copy
keeps its copies, and no more come than there are downloads of it in flight. -/
theorem copies_stay (k : SyncClass) (hk : k ≠ .master) (isURL : String → Bool) (d : String)
    (s s' : SyncState k.realmClass) (hone : 0 < s.copies d) (es : List SyncEvent)
    (hdoc : ∀ e ∈ es, SyncState.Documented d e)
    (h : (sync k.realmClass isURL).exec s es = some s') :
    s.copies d ≤ s'.copies d ∧ s'.copies d + s'.loading d ≤ s.copies d + s.loading d := by
  have hsame : ∀ object data, k.realmClass.changed object data = some false :=
    changed_of_ne_master hk
  refine EventMachine.exec_keeps_of (M := sync k.realmClass isURL)
    (P := fun t => s.copies d ≤ t.copies d ∧ t.copies d + t.loading d ≤ s.copies d + s.loading d)
    (fun t e t' hP hC hstep => ?_) hdoc ⟨Nat.le_refl _, Nat.le_refl _⟩ h
  obtain ⟨hmore, hno⟩ := SyncState.copies_step hsame (lt_of_lt_of_le hone hP.1) hC hstep
  exact ⟨hP.1.trans hmore, hno.trans hP.2⟩

/-- The document of a discont. -/
def saleDocument : Document :=
  ⟨"1", saveDiscontToFirebase { name := "-20%", imageURL := "https://images/sale" }⟩

/-- Two passes before the first download ends: the second copy comes, and a third pass changes
nothing. -/
theorem copies_stay_twice : ∃ s s' : SyncState discontClass,
    s.copies "1" = 1 ∧ s'.copies "1" = 2 ∧
      s.copies "1" ≤ s'.copies "1" ∧ s'.copies "1" + s'.loading "1" ≤ s.copies "1" + s.loading "1" := by
  have hrun : ((sync discontClass (fun _ => true)).exec ⟨Table.empty, [], none⟩
      [.snapshot [saleDocument], .snapshot [saleDocument], .complete 0 (.bytes [1] true)]).map
        (fun s => (s.copies "1", ((sync discontClass (fun _ => true)).exec s
          [.complete 0 (.bytes [1] true), .snapshot [saleDocument]]).map (fun s => s.copies "1")))
      = some (1, some 2) := by decide
  obtain ⟨s, -, hend⟩ := Option.map_eq_some_iff.mp hrun
  obtain ⟨hcopies, hend⟩ := Prod.mk.inj hend
  obtain ⟨s', hs', hcopies'⟩ := Option.map_eq_some_iff.mp hend
  have hone : 0 < s.copies "1" := by rw [hcopies]; decide
  refine ⟨s, s', hcopies, hcopies', ?_⟩
  refine copies_stay .discont nofun (fun _ => true) "1" s s' hone _ ?_ hs'
  intro e he
  rcases List.mem_cons.mp he with rfl | he
  · trivial
  · rw [List.mem_singleton.mp he]
    exact List.mem_singleton_self _

/-- **One copy.** In a run, a record never has more than one copy or download if and only if every
pass that finds no object of it starts the only download of it. -/
theorem atMostOne_always_iff (k : SyncClass) (hk : k ≠ .master) (isURL : String → Bool) (d : String)
    (s s' : SyncState k.realmClass) (h0 : (sync k.realmClass isURL).init s) (es : List SyncEvent)
    (h : (sync k.realmClass isURL).exec s es = some s') :
    (sync k.realmClass isURL).Always (SyncState.AtMostOne d) s es ↔
      (sync k.realmClass isURL).Each (SyncState.FetchesAlone d) s es := by
  refine EventMachine.always_iff_each (fun _ => True) (SyncState.AtMostOne d)
    (fun _ _ _ _ _ => trivial)
    (fun _ _ _ _ hi hstep => SyncState.atMostOne_step (changed_of_ne_master hk) hi hstep)
    es trivial ?_ h
  obtain ⟨hnodup, hpending, -⟩ := h0
  have hcopies : s.copies d ≤ 1 := List.nodup_iff_count_le_one.mp hnodup d
  show s.copies d + s.loading d ≤ 1
  rw [SyncState.loading, SyncState.pendingIds, hpending]
  simpa using hcopies

/-- A pass, its download and another pass, and the run in which the second pass comes before the
download ends. -/
theorem atMostOne_always_serial :
    (sync discontClass (fun _ => true)).Always (SyncState.AtMostOne "1") ⟨Table.empty, [], none⟩
        [.snapshot [saleDocument], .complete 0 (.bytes [1] true), .snapshot [saleDocument]] ∧
      ¬ (sync discontClass (fun _ => true)).Always (SyncState.AtMostOne "1") ⟨Table.empty, [], none⟩
        [.snapshot [saleDocument], .snapshot [saleDocument], .complete 0 (.bytes [1] true)] := by
  have h0 : (sync discontClass (fun _ => true)).init ⟨Table.empty, [], none⟩ :=
    ⟨List.nodup_nil, rfl, rfl⟩
  have hserial : ((sync discontClass (fun _ => true)).execWhere (SyncState.FetchesAlone "1")
      ⟨Table.empty, [], none⟩ [.snapshot [saleDocument], .complete 0 (.bytes [1] true),
        .snapshot [saleDocument]]).isSome = true := by decide
  have hoverlap : ((sync discontClass (fun _ => true)).exec ⟨Table.empty, [], none⟩
      [.snapshot [saleDocument], .snapshot [saleDocument], .complete 0 (.bytes [1] true)]).isSome
        = true := by decide
  have hfails : (sync discontClass (fun _ => true)).execWhere (SyncState.FetchesAlone "1")
      ⟨Table.empty, [], none⟩ [.snapshot [saleDocument], .snapshot [saleDocument],
        .complete 0 (.bytes [1] true)] = none := by
    rw [← Option.isNone_iff_eq_none]
    decide
  obtain ⟨s, hs⟩ := Option.isSome_iff_exists.mp hserial
  obtain ⟨s', hs'⟩ := Option.isSome_iff_exists.mp hoverlap
  obtain ⟨hrun, heach⟩ := (EventMachine.execWhere_eq_some_iff _).mp hs
  refine ⟨(atMostOne_always_iff .discont nofun _ "1" _ s h0 _ hrun).mpr heach, fun halways => ?_⟩
  have heach' : (sync discontClass (fun _ => true)).Each (SyncState.FetchesAlone "1") _ _ :=
    (atMostOne_always_iff .discont nofun _ "1" _ s' h0 _ hs').mp halways
  have hsome := (EventMachine.execWhere_eq_some_iff _).mpr ⟨hs', heach'⟩
  rw [hfails] at hsome
  cases hsome

end Flamingo
