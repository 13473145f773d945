import Flamingo.Lib.Machine
import Flamingo.Lib.Writes
import Flamingo.DBManager.Passes
import Flamingo.DBManager.FirebaseManager

set_option autoImplicit false

/-! # A master that is read while it is written

`updataMaster` writes the fields of a master's document one after the other. Another device reads
the document between two of the writes, and keeps what it has read.
-/

namespace Flamingo

/-! ## The four writes -/

/-- The fields that `updataMaster` writes, in its order. -/
def masterWrites (master : Master) : List (String × String) :=
  [("imageURL", master.imageURL), ("info", master.info), ("name", master.name),
    ("profil", master.profil)]

/-- `updateData` of some fields on a dictionary. -/
def DocData.write (data : DocData) (writes : List (String × String)) : DocData :=
  writes.foldl (fun data w => data.set w.1 (.string w.2)) data

theorem updataMaster_eq_write (master : Master) (data : DocData) :
    updataMaster master data = data.write (masterWrites master) := rfl

/-- The texts of the fields are written like a record. -/
theorem text_write (data : DocData) (writes : List (String × String)) :
    (data.write writes).text = Writes.apply writes data.text := by
  induction writes generalizing data with
  | nil => rfl
  | cons w writes ih =>
      show ((data.set w.1 (.string w.2)).write writes).text
        = Writes.apply writes (Function.update data.text w.1 w.2)
      rw [ih]
      congr 1
      funext key
      rw [DocData.text, DocData.string?_set, Function.update_apply]
      split_ifs
      · rfl
      · rfl

/-- A master has the fields of a document. -/
def Master.Agrees (master : Master) (data : DocData) : Prop :=
  master.name = data.text "name" ∧ master.profil = data.text "profil" ∧
    master.info = data.text "info" ∧ master.imageURL = data.text "imageURL"

theorem agrees_init (id : String) (data : DocData) (image : ImageData) :
    (masterClass.init id data image).Agrees data := ⟨rfl, rfl, rfl, rfl⟩

/-- A stored master that is not changed has the fields of the document. -/
theorem agrees_of_not_changed {master : Master} {data : DocData}
    (h : masterChanged id master data = some false) : master.Agrees data := by
  simp only [masterChanged, id_eq, Option.bind_eq_bind] at h
  obtain ⟨name, hname, h⟩ := Option.bind_eq_some_iff.mp h
  split_ifs at h with h1
  · cases h
  obtain ⟨imageURL, hurl, h⟩ := Option.bind_eq_some_iff.mp h
  split_ifs at h with h2
  · cases h
  obtain ⟨info, hinfo, h⟩ := Option.bind_eq_some_iff.mp h
  split_ifs at h with h3
  · cases h
  obtain ⟨profil, hprofil, h⟩ := Option.bind_eq_some_iff.mp h
  have h4 : master.profil = profil := by simpa using h
  unfold Master.Agrees DocData.text
  rw [hname, hurl, hinfo, hprofil]
  exact ⟨not_not.mp h1, h4, not_not.mp h3, not_not.mp h2⟩

/-- A master of the fields of one document has those of another exactly if the texts are the
same. -/
theorem agrees_iff {master : Master} {data data' : DocData} (h : master.Agrees data) (edit : Master) :
    master.Agrees data' ↔ ∀ key ∈ (masterWrites edit).map Prod.fst, data.text key = data'.text key := by
  obtain ⟨hname, hprofil, hinfo, hurl⟩ := h
  unfold Master.Agrees
  rw [hname, hprofil, hinfo, hurl]
  simp only [masterWrites, List.map_cons, List.map_nil, List.forall_mem_cons, List.not_mem_nil,
    false_imp_iff, implies_true, and_true]
  constructor
  · rintro ⟨h1, h2, h3, h4⟩
    exact ⟨h4, h3, h1, h2⟩
  · rintro ⟨h4, h3, h1, h2⟩
    exact ⟨h1, h2, h3, h4⟩

/-! ## The steps -/

structure UpdateState where
  /-- the collection `masters` -/
  content : List Document
  /-- how many of the writes have reached the collection -/
  written : Nat
  /-- the masters of the other device -/
  sync : SyncState masterClass

inductive UpdateEvent
  | write
  | snapshot
  | complete (i : Nat) (download : Download)

namespace UpdateState

/-- The pass of the other device takes one snapshot. -/
def step (isURL : String → Bool) (idDocument : String) (master : Master) (s : UpdateState) :
    UpdateEvent → Option UpdateState
  | .write => (masterWrites master)[s.written]?.map (fun w =>
      { s with
        content := updateData s.content idDocument w.1 (.string w.2)
        written := s.written + 1 })
  | .snapshot =>
      if s.sync.snapshot.isNone then
        (s.sync.processSnapshot isURL s.content).map (fun sync => { s with sync })
      else none
  | .complete i download => (s.sync.complete i download).map (fun sync => { s with sync })

end UpdateState

/-- The edit of the master of a document, `before` being its data. -/
def updating (isURL : String → Bool) (idDocument : String) (master : Master) (before : DocData) :
    EventMachine UpdateState UpdateEvent where
  init s := ⟨idDocument, before⟩ ∈ s.content ∧
    (∀ d ∈ s.content, d.documentID = idDocument → d.data = before) ∧
    s.written = 0 ∧ s.sync.pending = [] ∧ s.sync.snapshot = none
  step := UpdateState.step isURL idDocument master

namespace UpdateState

variable {isURL : String → Bool} {idDocument : String} {master : Master} {before : DocData}

/-- The writes before the snapshot change nothing, or those after it do not. -/
def Untorn (master : Master) (before : DocData) (s : UpdateState) : UpdateEvent → Prop
  | .snapshot => (∀ w ∈ (masterWrites master).take s.written, before.text w.1 = w.2) ∨
      ∀ w ∈ (masterWrites master).drop s.written, before.text w.1 = w.2
  | _ => True

/-! ## The invariant -/

/-- The document after some of the writes. -/
def dataAt (master : Master) (before : DocData) (n : Nat) : DocData :=
  before.write ((masterWrites master).take n)

structure UpdateInv (idDocument : String) (master : Master) (before : DocData) (s : UpdateState) :
    Prop where
  data : ∀ d ∈ s.content, d.documentID = idDocument → d.data = dataAt master before s.written
  mem : ∃ d ∈ s.content, d.documentID = idDocument
  /-- nothing is downloaded before the snapshot -/
  quiet : s.sync.snapshot = none → s.sync.pending = []
  pending : ∀ documents ∈ s.sync.snapshot, ∀ d ∈ s.sync.pending, d ∈ documents
  objects : ∀ documents ∈ s.sync.snapshot, ∀ o ∈ s.sync.table.objects, ∃ d ∈ documents,
    d.documentID = o.2.id ∧ o.2.Agrees d.data
  same : ∀ documents ∈ s.sync.snapshot, ∃ data, ∀ d ∈ documents,
    d.documentID = idDocument → d.data = data

theorem updateInv_init {s : UpdateState} (h : (updating isURL idDocument master before).init s) :
    UpdateInv idDocument master before s := by
  obtain ⟨hmem, hdata, hwritten, hpending, hsnapshot⟩ := h
  have hnone : ∀ documents, documents ∉ s.sync.snapshot := by
    intro documents
    rw [hsnapshot]
    exact Option.not_mem_none documents
  constructor
  · intro d hd hid
    rw [hdata d hd hid, hwritten]
    rfl
  · exact ⟨_, hmem, rfl⟩
  · exact fun _ => hpending
  · exact fun documents hdocuments => absurd hdocuments (hnone documents)
  · exact fun documents hdocuments => absurd hdocuments (hnone documents)
  · exact fun documents hdocuments => absurd hdocuments (hnone documents)

/-- A write turns the document into the one after the next write. -/
theorem dataAt_succ {n : Nat} {w : String × String} (hw : (masterWrites master)[n]? = some w) :
    dataAt master before (n + 1) = (dataAt master before n).set w.1 (.string w.2) := by
  obtain ⟨hlt, hget⟩ := List.getElem?_eq_some_iff.mp hw
  unfold dataAt DocData.write
  rw [List.take_succ_eq_append_getElem hlt, List.foldl_append, hget]
  rfl

theorem updateInv_write {s s' : UpdateState} (hi : UpdateInv idDocument master before s)
    (h : s.step isURL idDocument master .write = some s') :
    UpdateInv idDocument master before s' ∧ s'.sync = s.sync := by
  obtain ⟨w, hw, rfl⟩ := Option.map_eq_some_iff.mp h
  refine ⟨⟨?_, ?_, hi.quiet, hi.pending, hi.objects, hi.same⟩, rfl⟩
  · intro d hd hid
    obtain ⟨d', hd', rfl⟩ := List.mem_map.mp hd
    -- the write is to one document, the others have other ids
    by_cases heq : d'.documentID = idDocument
    · rw [if_pos (beq_iff_eq.mpr heq), hi.data d' hd' heq]
      exact (dataAt_succ hw).symm
    · rw [if_neg (mt beq_iff_eq.mp heq)] at hid
      exact absurd hid heq
  · obtain ⟨d, hd, hid⟩ := hi.mem
    refine ⟨_, List.mem_map_of_mem hd, ?_⟩
    rw [if_pos (beq_iff_eq.mpr hid)]

theorem updateInv_snapshot {s s' : UpdateState} (hi : UpdateInv idDocument master before s)
    (h : s.step isURL idDocument master .snapshot = some s') :
    UpdateInv idDocument master before s' ∧ s.sync.snapshot = none ∧
      s'.sync.snapshot = some s.content := by
  simp only [step] at h
  split_ifs at h with hnone
  obtain ⟨sync, hsync, rfl⟩ := Option.map_eq_some_iff.mp h
  rw [Option.isNone_iff_eq_none] at hnone
  obtain ⟨t, hloop, heq⟩ := SyncState.processSnapshot_eq_some.mp hsync
  have hsnapshot : sync.snapshot = some s.content := by rw [heq]
  refine ⟨⟨hi.data, hi.mem, ?_, ?_, ?_, ?_⟩, hnone, hsnapshot⟩
  · intro hnone'
    rw [hsnapshot] at hnone'
    cases hnone'
  · -- the downloads of the pass are of documents that it has read
    intro documents hdocuments d hd
    rw [hsnapshot, Option.mem_some_iff] at hdocuments
    subst hdocuments
    obtain ⟨-, new, hpending, hnew⟩ := SyncState.processDocuments_effect hloop
    rw [hi.quiet hnone, List.nil_append] at hpending
    have hd' : d ∈ t.pending := by rwa [heq] at hd
    rw [hpending] at hd'
    exact (hnew d hd').1
  · -- a master that the pass has kept was compared with its document
    intro documents hdocuments o ho
    rw [hsnapshot, Option.mem_some_iff] at hdocuments
    subst hdocuments
    obtain ⟨-, -, hid⟩ := (SyncState.mem_processSnapshot hsync).mp ho
    obtain ⟨d, hd, hid⟩ := List.mem_map.mp hid
    refine ⟨d, hd, hid, agrees_of_not_changed ?_⟩
    apply SyncState.changed_of_mem_processSnapshot hsync ho hd
    rw [hid]
    exact Text.containsC_self _
  · intro documents hdocuments
    rw [hsnapshot, Option.mem_some_iff] at hdocuments
    subst hdocuments
    exact ⟨_, hi.data⟩

theorem updateInv_complete {s s' : UpdateState} {i : Nat} {download : Download}
    (hi : UpdateInv idDocument master before s)
    (h : s.step isURL idDocument master (.complete i download) = some s') :
    UpdateInv idDocument master before s' ∧ s'.sync.snapshot = s.sync.snapshot := by
  obtain ⟨sync, hsync, rfl⟩ := Option.map_eq_some_iff.mp h
  obtain ⟨d, hd, hpending, hsnapshot, hcase⟩ := SyncState.complete_eq_some hsync
  refine ⟨⟨hi.data, hi.mem, ?_, ?_, ?_, ?_⟩, hsnapshot⟩
  · intro hnone
    rw [hsnapshot] at hnone
    rw [hi.quiet hnone] at hd
    cases hd
  · intro documents hdocuments d' hd'
    rw [hsnapshot] at hdocuments
    rw [hpending] at hd'
    exact hi.pending documents hdocuments d' (List.mem_of_mem_eraseIdx hd')
  · intro documents hdocuments o ho
    rw [hsnapshot] at hdocuments
    rcases hcase with ⟨data, -, htable⟩ | ⟨-, htable⟩
    · rw [htable] at ho
      rcases List.mem_append.mp ho with ho | ho
      · exact hi.objects documents hdocuments o ho
      · -- the object that the download adds has the fields of its document
        obtain rfl := List.mem_singleton.mp ho
        exact ⟨d, hi.pending documents hdocuments d (List.mem_of_getElem? hd), rfl,
          agrees_init _ _ _⟩
    · rw [htable] at ho
      exact hi.objects documents hdocuments o ho
  · intro documents hdocuments
    rw [hsnapshot] at hdocuments
    exact hi.same documents hdocuments

theorem updateInv_step {s s' : UpdateState} {e : UpdateEvent}
    (hi : UpdateInv idDocument master before s)
    (h : s.step isURL idDocument master e = some s') : UpdateInv idDocument master before s' := by
  cases e with
  | write => exact (updateInv_write hi h).1
  | snapshot => exact (updateInv_snapshot hi h).1
  | complete i download => exact (updateInv_complete hi h).1

/-! ## What the snapshot shows -/

/-- The data of a document is the old one or the new one, as far as the four fields go. -/
def Whole (master : Master) (before data : DocData) : Prop :=
  (∀ key ∈ (masterWrites master).map Prod.fst, data.text key = before.text key) ∨
    ∀ key ∈ (masterWrites master).map Prod.fst,
      data.text key = (updataMaster master before).text key

/-- The snapshot shows the edited document as a whole. -/
def SeesWhole (idDocument : String) (master : Master) (before : DocData) (s : UpdateState) : Prop :=
  ∀ documents ∈ s.sync.snapshot, ∀ d ∈ documents, d.documentID = idDocument →
    Whole master before d.data

theorem whole_dataAt_iff (n : Nat) :
    Whole master before (dataAt master before n) ↔
      (∀ w ∈ (masterWrites master).take n, before.text w.1 = w.2) ∨
        ∀ w ∈ (masterWrites master).drop n, before.text w.1 = w.2 := by
  have hnodup : ((masterWrites master).map Prod.fst).Nodup := by
    show ["imageURL", "info", "name", "profil"].Nodup
    decide
  rw [Whole, dataAt, updataMaster_eq_write, text_write, text_write]
  exact or_congr (Writes.apply_take_eq_old_iff hnodup n _) (Writes.apply_take_eq_new_iff hnodup n _)

/-- **One step** keeps the document whole exactly if the snapshot is not taken between two changes. -/
theorem seesWhole_step {s s' : UpdateState} {e : UpdateEvent}
    (hi : UpdateInv idDocument master before s)
    (h : s.step isURL idDocument master e = some s') :
    SeesWhole idDocument master before s' ↔
      SeesWhole idDocument master before s ∧ s.Untorn master before e := by
  cases e with
  | write =>
      have hsync := (updateInv_write hi h).2
      unfold SeesWhole
      rw [hsync, Untorn, and_true]
      exact nofun
  | snapshot =>
      obtain ⟨-, hnone, hsnapshot⟩ := updateInv_snapshot hi h
      have hbefore : SeesWhole idDocument master before s := by
        intro documents hdocuments
        rw [hnone] at hdocuments
        cases hdocuments
      rw [and_iff_right hbefore, Untorn, ← whole_dataAt_iff, SeesWhole, hsnapshot]
      constructor
      · intro hwhole
        obtain ⟨d, hd, hid⟩ := hi.mem
        rw [← hi.data d hd hid]
        exact hwhole s.content rfl d hd hid
      · intro hwhole documents hdocuments d hd hid
        rw [Option.mem_some_iff] at hdocuments
        subst hdocuments
        rw [hi.data d hd hid]
        exact hwhole
  | complete i download =>
      have hsnapshot := (updateInv_complete hi h).2
      unfold SeesWhole
      rw [hsnapshot, Untorn, and_true]
      exact nofun

theorem seesWhole_init {s : UpdateState} (h : (updating isURL idDocument master before).init s) :
    SeesWhole idDocument master before s := by
  obtain ⟨-, -, -, -, hsnapshot⟩ := h
  intro documents hdocuments
  rw [hsnapshot] at hdocuments
  cases hdocuments

/-- **What the other device has read** is whole in exactly the runs that meet the condition. -/
theorem seesWhole_iff_reach {s : UpdateState}
    (h : (updating isURL idDocument master before).Reachable s) :
    SeesWhole idDocument master before s ↔
      (updating isURL idDocument master before).Reach (Untorn master before) s :=
  h.iff_reach (UpdateInv idDocument master before) (SeesWhole idDocument master before)
    (fun _ h0 => ⟨updateInv_init h0, seesWhole_init h0⟩)
    (fun _ _ _ hi hs => updateInv_step hi hs)
    (fun _ _ _ hi hs => seesWhole_step hi hs)

end UpdateState

/-! ## The runs -/

/-- **No torn master**: the master that the pass leaves has the fields before the edit or those
after it, exactly in the runs in which the writes on one side of the snapshot change nothing. -/
theorem neverTorn_iff_reach (isURL : String → Bool) (idDocument : String) (master : Master)
    (before : DocData) (s : UpdateState)
    (h : (updating isURL idDocument master before).Reachable s) (hpass : s.sync.snapshot ≠ none)
    (o : Nat × Master) (ho : o ∈ s.sync.table.objects) (hid : o.2.id = idDocument) :
    (o.2.Agrees before ∨ o.2.Agrees (updataMaster master before)) ↔
      (updating isURL idDocument master before).Reach (UpdateState.Untorn master before) s := by
  have hinv : UpdateState.UpdateInv idDocument master before s :=
    h.invariant (UpdateState.UpdateInv idDocument master before)
      (fun _ h0 => UpdateState.updateInv_init h0)
      (fun _ _ _ hi _ hs => UpdateState.updateInv_step hi hs)
  obtain ⟨documents, hdocuments⟩ := Option.ne_none_iff_exists'.mp hpass
  obtain ⟨d, hd, hsameId, hagrees⟩ := hinv.objects documents hdocuments o ho
  obtain ⟨data, hdata⟩ := hinv.same documents hdocuments
  -- the master has the fields of the document as the snapshot shows it
  rw [← UpdateState.seesWhole_iff_reach h, agrees_iff hagrees master, agrees_iff hagrees master]
  constructor
  · intro hwhole documents' hdocuments' d' hd' hid'
    rw [hdocuments, Option.mem_some_iff] at hdocuments'
    subst hdocuments'
    rw [hdata d' hd' hid', ← hdata d hd (hsameId.trans hid)]
    exact hwhole
  · intro hwhole
    exact hwhole documents hdocuments d hd (hsameId.trans hid)

instance (master : Master) (before : DocData) (s : UpdateState) (e : UpdateEvent) :
    Decidable (s.Untorn master before e) :=
  match e with
  | .write => .isTrue trivial
  | .snapshot => inferInstanceAs (Decidable ((∀ w ∈ _, _ = _) ∨ ∀ w ∈ _, _ = _))
  | .complete _ _ => .isTrue trivial

/-- The data of a master before an edit. -/
def masterBefore : DocData :=
  saveMasterToFirebase { name := "Anna", profil := "nails", imageURL := "https://first" }

/-- The document is not written yet, and the other device has no masters. -/
def beforeEdit : UpdateState where
  content := [⟨"1", masterBefore⟩]
  written := 0
  sync := ⟨Table.empty, [], none⟩

theorem init_beforeEdit (isURL : String → Bool) (master : Master) :
    (updating isURL "1" master masterBefore).init beforeEdit := by
  refine ⟨List.mem_singleton_self _, ?_, rfl, rfl, rfl⟩
  intro d hd _
  rw [List.mem_singleton.mp hd]

/-- The image URL is written, the other device reads, and fetches the master. -/
def readAfterFirstWrite : List UpdateEvent := [.write, .snapshot, .complete 0 (.bytes [1] true)]

/-- An edit of the image only is read as a whole after the first write. -/
theorem neverTorn_image : ∃ (s : UpdateState) (o : Nat × Master), o ∈ s.sync.table.objects ∧
    o.2.imageURL = "https://second" ∧ (o.2.Agrees masterBefore ∨ o.2.Agrees (updataMaster
      { name := "Anna", profil := "nails", imageURL := "https://second" } masterBefore)) := by
  have hrun : ((updating (fun _ => true) "1"
      { name := "Anna", profil := "nails", imageURL := "https://second" } masterBefore).execWhere
        (UpdateState.Untorn { name := "Anna", profil := "nails", imageURL := "https://second" }
          masterBefore) beforeEdit readAfterFirstWrite).map
      (fun s => (s.sync.snapshot.isSome,
        s.sync.table.objects.map (fun o => (o.2.id, o.2.imageURL))))
      = some (true, [("1", "https://second")]) := by decide
  obtain ⟨s, hs, hend⟩ := Option.map_eq_some_iff.mp hrun
  obtain ⟨hsnapshot, hobjects⟩ := Prod.mk.inj hend
  obtain ⟨o, hlist, hfields⟩ := List.map_eq_singleton_iff.mp hobjects
  obtain ⟨hid, hurl⟩ := Prod.mk.inj hfields
  have ho : o ∈ s.sync.table.objects := by rw [hlist]; exact List.mem_singleton_self o
  have hreach := EventMachine.reach_of_execWhere _ (init_beforeEdit _ _) hs
  exact ⟨s, o, ho, hurl, (neverTorn_iff_reach _ _ _ _ s hreach.reachable
    (Option.isSome_iff_ne_none.mp hsnapshot) o ho hid).mpr hreach⟩

/-- **The mixture.** The other device keeps the old name with the new image URL. -/
theorem not_neverTorn : ¬ ∀ (isURL : String → Bool) (idDocument : String) (master : Master)
    (before : DocData) (s : UpdateState),
    (updating isURL idDocument master before).Reachable s → s.sync.snapshot ≠ none →
    ∀ o ∈ s.sync.table.objects, o.2.id = idDocument →
      o.2.Agrees before ∨ o.2.Agrees (updataMaster master before) := by
  intro hall
  have hrun : ((updating (fun _ => true) "1" { name := "Maria", imageURL := "https://second" }
      masterBefore).exec beforeEdit readAfterFirstWrite).map
      (fun s => (s.sync.snapshot.isSome,
        s.sync.table.objects.map (fun o => (o.2.id, o.2.name, o.2.imageURL))))
      = some (true, [("1", "Anna", "https://second")]) := by decide
  obtain ⟨s, hs, hend⟩ := Option.map_eq_some_iff.mp hrun
  obtain ⟨hsnapshot, hobjects⟩ := Prod.mk.inj hend
  obtain ⟨o, hlist, hfields⟩ := List.map_eq_singleton_iff.mp hobjects
  simp only [Prod.mk.injEq] at hfields
  obtain ⟨hid, hname, hurl⟩ := hfields
  have hreach := EventMachine.reachable_of_exec _ (init_beforeEdit _ _) hs
  have hmem : o ∈ s.sync.table.objects := by rw [hlist]; exact List.mem_singleton_self o
  rcases hall _ _ _ _ s hreach (Option.isSome_iff_ne_none.mp hsnapshot) o hmem hid with
    ⟨-, -, -, h⟩ | ⟨h, -, -, -⟩
  · rw [hurl] at h
    exact absurd h (by decide)
  · rw [hname] at h
    exact absurd h (by decide)

end Flamingo
