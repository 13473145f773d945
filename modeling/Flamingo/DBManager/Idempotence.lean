import Flamingo.DBManager.Convergence
import Flamingo.DBManager.KeptRecords
import Flamingo.DBManager.TornUpdate

set_option autoImplicit false

/-! # The second pass

A pass whose downloads all succeed leaves a store that the same snapshot does not change any more.
An object that the first pass kept was compared with its document and not found different; an
object that it fetched was made from the document, and the comparison looks at no field that the
initialiser does not copy. The delete loop of the second pass finds a document for every object.
-/

namespace Flamingo

/-- A store, with no pass in progress. -/
def SyncState.onStore {c : RealmClass} (table : Table c.Object) : SyncState c := ⟨table, [], none⟩

/-- The fields that the pass over a class needs: four texts of a master, an image URL else. -/
def SyncClass.Readable : SyncClass → DocData → Prop
  | .master, data =>
      ∀ key ∈ ["name", "profil", "info", "imageURL"], ∃ text, data.string? key = some text
  | .discont, data | .category, data | .service, data =>
      ∃ imageURL, data.string? "imageURL" = some imageURL

/-- A stored master has the fields of its document. -/
def SyncClass.StoredAs : (k : SyncClass) → k.realmClass.Object → DocData → Prop
  | .master, object, data => Master.Agrees object data
  | .discont, _, _ | .category, _, _ | .service, _, _ => True

/-- No id of the store or the snapshot contains another one, ignoring case. -/
def SyncState.Separate {c : RealmClass} (s : SyncState c) (documents : List Document) : Prop :=
  ∀ x ∈ s.ids ++ documents.map (·.documentID), ∀ y ∈ s.ids ++ documents.map (·.documentID),
    Text.containsC x y = true → x = y

theorem SyncClass.Readable.imageURL {k : SyncClass} {data : DocData} (h : k.Readable data) :
    ∃ imageURL, data.string? "imageURL" = some imageURL := by
  cases k with
  | master => exact h "imageURL" (by simp)
  | discont => exact h
  | category => exact h
  | service => exact h

/-- The document that the program writes for a master has the four texts. -/
theorem readable_saveMasterToFirebase (master : Master) :
    SyncClass.master.Readable (saveMasterToFirebase master) := by
  intro key hkey
  simp only [List.mem_cons, List.not_mem_nil, or_false] at hkey
  rcases hkey with rfl | rfl | rfl | rfl
  · exact ⟨master.name, rfl⟩
  · exact ⟨master.profil, rfl⟩
  · exact ⟨master.info, rfl⟩
  · exact ⟨master.imageURL, rfl⟩

/-- **The initialiser and the comparison agree**: an object that was made from a document does not
differ from it. -/
theorem changed_init (k : SyncClass) {data : DocData} (h : k.Readable data) (documentID : String)
    (image : ImageData) :
    k.realmClass.changed (k.realmClass.init documentID data image) data = some false := by
  cases k with
  | master =>
      obtain ⟨name, hname⟩ := h "name" (by simp)
      obtain ⟨profil, hprofil⟩ := h "profil" (by simp)
      obtain ⟨info, hinfo⟩ := h "info" (by simp)
      obtain ⟨imageURL, hurl⟩ := h "imageURL" (by simp)
      show masterChanged id (Master.init documentID (data.string? "name") (data.string? "profil")
        (data.string? "info") (data.string? "imageURL") (some image)) data = some false
      simp [masterChanged, Master.init, hname, hprofil, hinfo, hurl]
  | discont => rfl
  | category => rfl
  | service => rfl

/-- What is not changed is stored as its document says. -/
theorem storedAs_of_not_changed (k : SyncClass) {object : k.realmClass.Object} {data : DocData}
    (h : k.realmClass.changed object data = some false) : k.StoredAs object data := by
  cases k with
  | master => exact agrees_of_not_changed h
  | discont => trivial
  | category => trivial
  | service => trivial

namespace SyncState

variable {c : RealmClass} {isURL isURL' : String → Bool}

/-! ## The URLs that are accepted -/

theorem urlAccepted_mono (hurl : ∀ x, isURL x = true → isURL' x = true) {d : Document}
    (h : urlAccepted isURL d = true) : urlAccepted isURL' d = true := by
  unfold urlAccepted at h ⊢
  cases hd : d.data.string? "imageURL" with
  | none => rfl
  | some imageURL =>
      rw [hd] at h
      exact hurl imageURL h

theorem comparable_mono (hurl : ∀ x, isURL x = true → isURL' x = true) {d : Document}
    {o : Nat × c.Object} (h : comparable c isURL d o = true) : comparable c isURL' d o = true := by
  unfold comparable at h ⊢
  cases hchanged : c.changed o.2 d.data with
  | none =>
      rw [hchanged] at h
      cases h
  | some changed =>
      rw [hchanged] at h
      cases changed with
      | false => rfl
      | true => exact urlAccepted_mono hurl h

/-- A pass that does not trap does the same where more URLs are accepted. -/
theorem processSnapshot_mono (hurl : ∀ x, isURL x = true → isURL' x = true) {s s' : SyncState c}
    {documents : List Document} (h : s.processSnapshot isURL documents = some s') :
    s.processSnapshot isURL' documents = some s' := by
  rw [processSnapshot_eq_some] at h ⊢
  obtain ⟨t, hloop, heq⟩ := h
  refine ⟨t, OptionFold.foldlM_mono ?_ documents hloop, heq⟩
  intro u d u' hone
  rw [processDocument_guard] at hone ⊢
  split_ifs at hone with haccepts
  rw [if_pos, hone]
  unfold accepts acceptsAll at haccepts ⊢
  split_ifs at haccepts ⊢
  · exact urlAccepted_mono hurl haccepts
  · rw [List.all_eq_true] at haccepts ⊢
    intro o ho
    exact comparable_mono hurl (haccepts o ho)

/-! ## A pass that changes nothing -/

/-- A document that finds objects, none of which differs from it. -/
theorem processDocument_same {s : SyncState c} {d : Document} (hfound : s.found d ≠ [])
    (hsame : ∀ o ∈ s.found d, c.changed o.2 d.data = some false) :
    s.processDocument isURL d = some s := by
  unfold processDocument
  rw [if_neg (mt List.length_eq_zero_iff.mp hfound)]
  apply OptionFold.foldlM_fixed
  intro o ho
  simp [updateObject, hsame o ho]

theorem removeOld_same {s : SyncState c} {idFireBase : List String}
    (h : ∀ o ∈ s.table.objects, c.id o.2 ∈ idFireBase) : s.removeOld idFireBase = s := by
  have hloop : ∀ l : List (Nat × c.Object), (∀ o ∈ l, c.id o.2 ∈ idFireBase) →
      l.foldl (fun t o => if !idFireBase.contains (c.id o.2) then t.deleteObjectRealm o.1 else t)
        s.table = s.table := by
    intro l
    induction l with
    | nil =>
        intro _
        rfl
    | cons o l ih =>
        intro hl
        have hcontains : idFireBase.contains (c.id o.2) = true :=
          List.contains_iff_mem.mpr (hl o List.mem_cons_self)
        rw [List.foldl_cons, if_neg (by rw [hcontains]; exact Bool.false_ne_true)]
        exact ih (fun o' ho' => hl o' (List.mem_cons_of_mem _ ho'))
  unfold removeOld
  rw [hloop s.table.objects h]

/-- **A pass over a store in step with the snapshot** changes nothing and starts no download. -/
theorem processSnapshot_same {s : SyncState c} {documents : List Document}
    (hsnapshot : s.snapshot = some documents)
    (hstored : ∀ o ∈ s.table.objects, c.id o.2 ∈ documents.map (·.documentID))
    (hthere : ∀ d ∈ documents, d.documentID ∈ s.ids)
    (hsame : ∀ o ∈ s.table.objects, ∀ d ∈ documents,
      Text.containsC (c.id o.2) d.documentID = true → c.changed o.2 d.data = some false) :
    s.processSnapshot isURL documents = some s := by
  rw [processSnapshot_eq_some]
  refine ⟨s, OptionFold.foldlM_fixed ?_, ?_⟩
  · intro d hd
    apply processDocument_same
    · obtain ⟨o, ho, hid⟩ := List.mem_map.mp (hthere d hd)
      refine List.ne_nil_of_mem (List.mem_filter.mpr ⟨ho, ?_⟩)
      rw [hid]
      exact Text.containsC_self _
    · intro o ho
      obtain ⟨hmem, hcontains⟩ := List.mem_filter.mp ho
      exact hsame o hmem d hd hcontains
  · rw [removeOld_same hstored, ← hsnapshot]

/-! ## What the first pass leaves -/

/-- An object after the downloads was there before, or was made from a document that was being
downloaded. -/
theorem mem_settle (downloads : List (Nat × Download)) {t s' : SyncState c}
    (h : t.settle isURL downloads = some s') {o : Nat × c.Object} (ho : o ∈ s'.table.objects) :
    o ∈ t.table.objects ∨ ∃ d ∈ t.pending, ∃ data, o.2 = c.init d.documentID d.data data := by
  -- induction on the downloads; what is pending only becomes less
  induction downloads generalizing t with
  | nil =>
      obtain rfl := Option.some.inj h
      exact Or.inl ho
  | cons x downloads ih =>
      obtain ⟨u, hone, hrest⟩ := Option.bind_eq_some_iff.mp h
      obtain ⟨d, hd, hpending, -, hcase⟩ := complete_eq_some hone
      rcases ih hrest with hmem | ⟨d', hd', data, hinit⟩
      · rcases hcase with ⟨data, -, htable⟩ | ⟨-, htable⟩
        · rw [htable] at hmem
          rcases List.mem_append.mp hmem with hmem | hmem
          · exact Or.inl hmem
          · rw [List.mem_singleton.mp hmem]
            exact Or.inr ⟨d, List.mem_of_getElem? hd, data, rfl⟩
        · rw [htable] at hmem
          exact Or.inl hmem
      · rw [hpending] at hd'
        exact Or.inr ⟨d', List.mem_of_mem_eraseIdx hd', data, hinit⟩

/-- Downloads that all succeed bring bytes of an image each. -/
theorem exists_bytes (downloads : List (Nat × Download))
    (h : ∀ x ∈ downloads, x.2.succeeded = true) :
    ∃ images : List (Nat × ImageData),
      downloads = images.map (fun x => (x.1, Download.bytes x.2 true)) := by
  induction downloads with
  | nil => exact ⟨[], rfl⟩
  | cons x downloads ih =>
      obtain ⟨images, rfl⟩ := ih (fun y hy => h y (List.mem_cons_of_mem _ hy))
      obtain ⟨i, download⟩ := x
      cases download with
      | failed => exact absurd (h _ List.mem_cons_self) Bool.false_ne_true
      | bytes data image =>
          have himage : image = true := h (i, .bytes data image) List.mem_cons_self
          exact ⟨(i, data) :: images, by rw [himage, List.map_cons]⟩

/-- When all downloads of a pass have succeeded, the ids of the store are those of the snapshot. -/
theorem ids_settled {s : SyncState c} {documents : List Document}
    {downloads : List (Nat × Download)} (pass : s.Pass isURL documents downloads)
    (hids : s.ids.Nodup) (hquiet : s.pending = [])
    (hdocs : (documents.map (·.documentID)).Nodup) (hseparate : s.Separate documents)
    (hurl : ∀ d ∈ documents, ∃ imageURL, d.data.string? "imageURL" = some imageURL)
    (hall : ∀ x ∈ downloads, x.2.succeeded = true) :
    pass.settled.ids.Perm (documents.map (·.documentID)) ∧
      pass.settled.snapshot = some documents := by
  -- that a URL is accepted matters for the trap alone, and the pass has not trapped
  have hprocessed : s.processSnapshot (fun _ => true) documents = some pass.processed :=
    processSnapshot_mono (fun _ _ => rfl) pass.processSnapshot_eq
  have hwf : WellFormed s (fun _ => true) (.snapshot documents) := by
    refine ⟨hdocs, ?_, ?_⟩
    · intro x hx y hy
      rw [pendingIds, hquiet, List.map_nil, List.append_nil] at hx
      exact hseparate x hx y (List.mem_append_right _ hy)
    · intro d hd
      obtain ⟨imageURL, hget⟩ := hurl d hd
      exact ⟨imageURL, hget, rfl⟩
  have hperm := perm_of_quiet hids hwf hquiet hprocessed
  obtain ⟨images, rfl⟩ := exists_bytes downloads hall
  have hsettle := pass.settle_eq
  rw [settle, List.map_map] at hsettle
  obtain ⟨hsnapshot, hperm'⟩ := exec_downloads images hsettle
  rw [pendingIds, pass.pending_eq, List.map_nil, List.append_nil] at hperm'
  refine ⟨hperm'.trans hperm, ?_⟩
  obtain ⟨t, -, heq⟩ := processSnapshot_eq_some.mp hprocessed
  rw [hsnapshot, heq]

end SyncState

/-! ## Two passes -/

/-- What a pass over an empty list of downloads fetches is among its documents. -/
theorem mem_of_pending {k : SyncClass} {isURL : String → Bool} {table : Table k.realmClass.Object}
    {documents : List Document} {s : SyncState k.realmClass}
    (h : (SyncState.onStore table).processSnapshot isURL documents = some s) :
    ∀ d ∈ s.pending, d ∈ documents := by
  intro d hd
  obtain ⟨t, hloop, heq⟩ := SyncState.processSnapshot_eq_some.mp h
  obtain ⟨-, new, hpending, hnew⟩ := SyncState.processDocuments_effect hloop
  rw [heq] at hd
  rw [show (SyncState.onStore table).pending = [] from rfl, List.nil_append] at hpending
  exact (hnew d (hpending ▸ hd)).1

/-- After a pass no object differs from a document that finds it. -/
theorem changed_settled (k : SyncClass) {isURL : String → Bool}
    {table : Table k.realmClass.Object} {documents : List Document}
    {downloads : List (Nat × Download)}
    (pass : (SyncState.onStore table).Pass isURL documents downloads)
    (hdocs : (documents.map (·.documentID)).Nodup)
    (hseparate : (SyncState.onStore table).Separate documents)
    (hread : ∀ d ∈ documents, k.Readable d.data) :
    ∀ o ∈ pass.settled.table.objects, ∀ d ∈ documents,
      Text.containsC (k.realmClass.id o.2) d.documentID = true →
      k.realmClass.changed o.2 d.data = some false := by
  intro o ho d hd hcontains
  rcases SyncState.mem_settle downloads pass.settle_eq ho with hkept | ⟨d', hd', data, hinit⟩
  · -- the pass has compared the object with the document
    exact SyncState.changed_of_mem_processSnapshot pass.processSnapshot_eq hkept hd hcontains
  · -- the object was fetched, and its document is the one that finds it
    have hmem : d' ∈ documents := mem_of_pending pass.processSnapshot_eq d' hd'
    rw [hinit, k.realmClass.id_init] at hcontains
    have hid : d'.documentID = d.documentID := hseparate _
      (List.mem_append_right _ (List.mem_map_of_mem hmem)) _
      (List.mem_append_right _ (List.mem_map_of_mem hd)) hcontains
    obtain rfl := List.inj_on_of_nodup_map hdocs hmem hd hid
    rw [hinit]
    exact changed_init k (hread d' hd) _ _

/-- **The synchronisation is idempotent.** After a pass whose downloads have all succeeded, a second
pass over the same snapshot neither deletes an object nor starts a download; every document has its
object, and a master has the fields of its document. -/
theorem secondPass_eq (k : SyncClass) (isURL : String → Bool) (table : Table k.realmClass.Object)
    (documents : List Document) (downloads : List (Nat × Download))
    (pass : (SyncState.onStore table).Pass isURL documents downloads)
    (hids : (table.objects.map (fun o => k.realmClass.id o.2)).Nodup)
    (hdocs : (documents.map (·.documentID)).Nodup)
    (hseparate : (SyncState.onStore table).Separate documents)
    (hread : ∀ d ∈ documents, k.Readable d.data)
    (hall : ∀ x ∈ downloads, x.2.succeeded = true) :
    pass.settled.processSnapshot isURL documents = some pass.settled ∧
      (∀ d ∈ documents, ∃ o ∈ pass.settled.table.objects,
        k.realmClass.id o.2 = d.documentID ∧ k.StoredAs o.2 d.data) ∧
      ∀ o ∈ pass.settled.table.objects, ∃ d ∈ documents,
        d.documentID = k.realmClass.id o.2 ∧ k.StoredAs o.2 d.data := by
  obtain ⟨hperm, hsnapshot⟩ := SyncState.ids_settled pass hids rfl hdocs hseparate
    (fun d hd => (hread d hd).imageURL) hall
  have hstored : ∀ o ∈ pass.settled.table.objects,
      k.realmClass.id o.2 ∈ documents.map (·.documentID) := by
    intro o ho
    exact hperm.subset (List.mem_map_of_mem ho)
  have hthere : ∀ d ∈ documents, d.documentID ∈ pass.settled.ids := by
    intro d hd
    exact hperm.symm.subset (List.mem_map_of_mem hd)
  have hsame := changed_settled k pass hdocs hseparate hread
  have hof : ∀ o ∈ pass.settled.table.objects, ∀ d ∈ documents,
      k.realmClass.id o.2 = d.documentID → k.StoredAs o.2 d.data := by
    intro o ho d hd hid
    apply storedAs_of_not_changed
    apply hsame o ho d hd
    rw [hid]
    exact Text.containsC_self _
  refine ⟨SyncState.processSnapshot_same hsnapshot hstored hthere hsame, ?_, ?_⟩
  · intro d hd
    obtain ⟨o, ho, hid⟩ := List.mem_map.mp (hthere d hd)
    exact ⟨o, ho, hid, hof o ho d hd hid⟩
  · intro o ho
    obtain ⟨d, hd, hid⟩ := List.mem_map.mp (hstored o ho)
    exact ⟨d, hd, hid, hof o ho d hd hid.symm⟩

instance {c : RealmClass} (s : SyncState c) (documents : List Document) :
    Decidable (s.Separate documents) :=
  inferInstanceAs (Decidable (∀ x ∈ _, ∀ y ∈ _, Text.containsC x y = true → x = y))

/-- The masters "1" and "2" are stored, and the snapshot has another name for "1" and a new master
"3". -/
def masterStore : Table Master :=
  (Table.empty.saveObjectRealm { id := "1", name := "Anna" }).saveObjectRealm
    { id := "2", name := "Olga" }

def nextMasters : List Document :=
  [⟨"1", saveMasterToFirebase { name := "Anna Maria" }⟩,
    ⟨"3", saveMasterToFirebase { name := "Vera" }⟩]

theorem secondPass_masters :
    ∃ pass : (SyncState.onStore (c := masterClass) masterStore).Pass (fun _ => true) nextMasters
        [(1, .bytes [3] true), (0, .bytes [1] true)],
      pass.settled.ids = ["3", "1"] ∧
        pass.settled.processSnapshot (fun _ => true) nextMasters = some pass.settled := by
  have hrun : (((SyncState.onStore (c := masterClass) masterStore).processSnapshot (fun _ => true)
      nextMasters).bind (fun t => (t.settle (fun _ => true)
        [(1, .bytes [3] true), (0, .bytes [1] true)]))).map (fun s => (s.pending, s.ids))
      = some ([], ["3", "1"]) := by decide
  obtain ⟨s', hs', hend⟩ := Option.map_eq_some_iff.mp hrun
  obtain ⟨t, hprocessed, hsettled⟩ := Option.bind_eq_some_iff.mp hs'
  obtain ⟨hpending, hids⟩ := Prod.mk.inj hend
  refine ⟨⟨t, s', hprocessed, hsettled, hpending⟩, hids, ?_⟩
  refine (secondPass_eq .master (fun _ => true) masterStore nextMasters _
    ⟨t, s', hprocessed, hsettled, hpending⟩ (by decide) (by decide) (by decide) ?_ (by decide)).1
  intro d hd
  rcases List.mem_cons.mp hd with rfl | hd
  · exact readable_saveMasterToFirebase _
  · rw [List.mem_singleton.mp hd]
    exact readable_saveMasterToFirebase _

end Flamingo
