import Flamingo.Lib.Interleaved
import Flamingo.DBManager.TornUpdate

set_option autoImplicit false

/-! # Two devices edit one master

`updataMaster` sends four writes, one for each field. Firestore applies the writes of one device in
the order in which they were sent, and those of different devices as they come; nothing ties the
four writes of an edit together.

So when all of them have arrived, the fields of the master may come from different edits. What is
sure is that each is the field of the last edit of some device, and that is all: every such mixture
is the outcome of some order of arrival (`concurrent_edits_mix`).
-/

namespace Flamingo

structure EditedMaster where
  /-- the collection `masters` -/
  content : List Document
  /-- the writes of each device that have not reached the collection -/
  sent : Nat → List (String × String)

inductive EditedMasterEvent
  | updataMaster (device : Nat) (master : Master)
  | write (device : Nat)

namespace EditedMaster

def step (idDocument : String) (s : EditedMaster) : EditedMasterEvent → Option EditedMaster
  | .updataMaster device master => some { s with
      sent := Function.update s.sent device (s.sent device ++ masterWrites master) }
  | .write device =>
      match s.sent device with
      | [] => none
      | w :: rest => some
          { content := updateData s.content idDocument w.1 (.string w.2)
            sent := Function.update s.sent device rest }

end EditedMaster

/-- The master of a document, `before` being its data, is edited on any number of devices. -/
def editedMaster (idDocument : String) (before : DocData) :
    EventMachine EditedMaster EditedMasterEvent where
  init s := ⟨idDocument, before⟩ ∈ s.content ∧
    (∀ d ∈ s.content, d.documentID = idDocument → d.data = before) ∧ ∀ device, s.sent device = []
  step := EditedMaster.step idDocument

namespace EditedMaster

def edit? : EditedMasterEvent → Option (Nat × Master)
  | .updataMaster device master => some (device, master)
  | .write _ => none

/-- The edits of a run, each with its device. -/
def published (es : List EditedMasterEvent) : List (Nat × Master) := es.filterMap edit?

/-- The last edit of a device. -/
def lastEdit (edits : List (Nat × Master)) (device : Nat) : Option Master :=
  ((edits.filter (fun e => e.1 = device)).map Prod.snd).getLast?

/-! ## The fields as a record that is written by many clients -/

/-- The text that an edit gives a field. -/
def fieldText (master : Master) (key : String) : String :=
  if key = "imageURL" then master.imageURL
  else if key = "info" then master.info
  else if key = "name" then master.name
  else master.profil

def masterKeys : List String := ["imageURL", "info", "name", "profil"]

theorem masterWrites_eq (master : Master) :
    masterWrites master = Interleaved.writes masterKeys (fieldText master) := rfl

def toEvent : EditedMasterEvent → Interleaved.Event Nat String String
  | .updataMaster device master => .edit device (fieldText master)
  | .write device => .write device

/-- The record has the texts of the document. -/
structure Mirrors (idDocument : String) (s : EditedMaster)
    (a : Interleaved Nat String String) : Prop where
  mem : ∃ d ∈ s.content, d.documentID = idDocument
  texts : ∀ d ∈ s.content, d.documentID = idDocument → d.data.text = a.record
  queues : s.sent = a.queues

theorem text_set (data : DocData) (key value : String) :
    (data.set key (.string value)).text = Function.update data.text key value := by
  have := text_write data [(key, value)]
  exact this

theorem mirrors_step (idDocument : String) (before : DocData) (old : String → String)
    (s : EditedMaster) (a : Interleaved Nat String String) (e : EditedMasterEvent)
    (h : Mirrors idDocument s a) :
    Option.Rel (Mirrors idDocument) ((editedMaster idDocument before).step s e)
      ((Interleaved.machine masterKeys old).step a (toEvent e)) := by
  cases e with
  | updataMaster device master =>
      refine .some ⟨h.mem, h.texts, ?_⟩
      show Function.update s.sent device (s.sent device ++ masterWrites master)
        = Function.update a.queues device (a.queues device ++ _)
      rw [h.queues, masterWrites_eq]
  | write device =>
      show Option.Rel _ (s.step idDocument (.write device))
        (Interleaved.step masterKeys a (.write device))
      simp only [step, Interleaved.step, h.queues]
      cases a.queues device with
      | nil => exact .none
      | cons w rest =>
          refine .some ⟨?_, ?_, rfl⟩
          · obtain ⟨d, hd, hid⟩ := h.mem
            refine ⟨_, List.mem_map_of_mem hd, ?_⟩
            rw [if_pos (beq_iff_eq.mpr hid)]
          · intro d hd hid
            obtain ⟨d', hd', rfl⟩ := List.mem_map.mp hd
            by_cases heq : d'.documentID = idDocument
            · rw [if_pos (beq_iff_eq.mpr heq), text_set, h.texts d' hd' heq]
            · rw [if_neg (mt beq_iff_eq.mp heq)] at hid
              exact absurd hid heq

theorem editsOf_published (es : List EditedMasterEvent) :
    (es.map toEvent).filterMap Interleaved.Event.edit?
      = (published es).map (fun e => (e.1, fieldText e.2)) := by
  induction es with
  | nil => rfl
  | cons e es ih =>
      cases e with
      | updataMaster device master => exact congrArg (List.cons (device, fieldText master)) ih
      | write device => exact ih

theorem latest_fieldText (edits : List (Nat × Master)) (device : Nat) :
    Interleaved.latest (edits.map (fun e => (e.1, fieldText e.2))) device
      = (lastEdit edits device).map fieldText := by
  rw [Interleaved.latest, Interleaved.editsOf, lastEdit, List.filter_map, List.map_map,
    ← List.getLast?_map, List.map_map]
  rfl

/-- A master agrees with a document if it gives every field the text of the document. -/
theorem agrees_iff_fieldText (shown : Master) (data : DocData) :
    shown.Agrees data ↔ ∀ key ∈ masterKeys, data.text key = fieldText shown key := by
  simp only [Master.Agrees, masterKeys, List.forall_mem_cons, List.not_mem_nil, false_imp_iff,
    implies_true, and_true]
  constructor
  · rintro ⟨hname, hprofil, hinfo, hurl⟩
    exact ⟨hurl.symm, hinfo.symm, hname.symm, hprofil.symm⟩
  · rintro ⟨hurl, hinfo, hname, hprofil⟩
    exact ⟨hname.symm, hprofil.symm, hinfo.symm, hurl.symm⟩

/-- Some device has given the field this text in its last edit. -/
def LastGiven (edits : List (Nat × Master)) (field : Master → String) (text : String) : Prop :=
  ∃ device master, lastEdit edits device = some master ∧ text = field master

theorem lastGiven_iff (edits : List (Nat × Master)) (shown : Master) :
    (LastGiven edits (·.name) shown.name ∧ LastGiven edits (·.profil) shown.profil ∧
      LastGiven edits (·.info) shown.info ∧ LastGiven edits (·.imageURL) shown.imageURL) ↔
    ∀ key ∈ masterKeys, LastGiven edits (fieldText · key) (fieldText shown key) := by
  simp only [masterKeys, List.forall_mem_cons, List.not_mem_nil, false_imp_iff, implies_true,
    and_true]
  constructor
  · rintro ⟨hname, hprofil, hinfo, hurl⟩
    exact ⟨hurl, hinfo, hname, hprofil⟩
  · rintro ⟨hurl, hinfo, hname, hprofil⟩
    exact ⟨hname, hprofil, hinfo, hurl⟩

theorem mirrors_init {idDocument : String} {before : DocData} {s : EditedMaster}
    (h : (editedMaster idDocument before).init s) :
    Mirrors idDocument s ⟨before.text, fun _ => []⟩ := by
  obtain ⟨hmem, hdata, hsent⟩ := h
  refine ⟨⟨_, hmem, rfl⟩, ?_, funext hsent⟩
  intro d hd hid
  rw [hdata d hd hid]

/-! ## The schedule: all edits are sent, then the writes arrive -/

def schedule (edits : List (Nat × Master)) (ws : List Nat) : List EditedMasterEvent :=
  edits.map (fun e => .updataMaster e.1 e.2) ++ ws.map .write

theorem map_toEvent_schedule (edits : List (Nat × Master)) (ws : List Nat) :
    (schedule edits ws).map toEvent
      = (edits.map (fun e => (e.1, fieldText e.2))).map (fun e => .edit e.1 e.2)
        ++ ws.map .write := by
  rw [schedule, List.map_append, List.map_map, List.map_map, List.map_map]
  rfl

theorem published_schedule (edits : List (Nat × Master)) (ws : List Nat) :
    published (schedule edits ws) = edits := by
  have hwrites : (ws.map EditedMasterEvent.write).filterMap edit? = [] := by
    rw [List.filterMap_map]
    exact List.filterMap_eq_nil_iff.mpr (fun _ _ => rfl)
  rw [published, schedule, List.filterMap_append, hwrites, List.append_nil, List.filterMap_map]
  exact List.filterMap_some

end EditedMaster

/-- **Concurrent edits of a master mix.** Any number of devices edit one master, some more than
once, and all writes arrive. The masters that the document may show then are exactly those each of
whose fields is the field of the last edit of some device, chosen for each field on its own. -/
theorem concurrent_edits_mix (idDocument : String) (before : DocData) (s : EditedMaster)
    (h0 : (editedMaster idDocument before).init s) (edits : List (Nat × Master)) (hne : edits ≠ [])
    (shown : Master) :
    (∃ (es : List EditedMasterEvent) (s' : EditedMaster),
      (editedMaster idDocument before).exec s es = some s' ∧
        EditedMaster.published es = edits ∧ (∀ device, s'.sent device = []) ∧
        ∀ d ∈ s'.content, d.documentID = idDocument → shown.Agrees d.data) ↔
    EditedMaster.LastGiven edits (·.name) shown.name ∧
      EditedMaster.LastGiven edits (·.profil) shown.profil ∧
      EditedMaster.LastGiven edits (·.info) shown.info ∧
      EditedMaster.LastGiven edits (·.imageURL) shown.imageURL := by
  have hmirrors := EditedMaster.mirrors_init h0
  have hstep := EditedMaster.mirrors_step idDocument before before.text
  rw [EditedMaster.lastGiven_iff]
  constructor
  · rintro ⟨es, s', hexec, rfl, hsent, hshown⟩ key hkey
    obtain ⟨a, ha, hend⟩ := EventMachine.exec_lockstep_left hstep hmirrors hexec
    have hqueues : ∀ device, a.queues device = [] := by
      intro device
      rw [← hend.queues]
      exact hsent device
    rcases Interleaved.exec_fields ha hqueues with ⟨hnone, -⟩ | hfields
    · rw [EditedMaster.editsOf_published, List.map_eq_nil_iff] at hnone
      exact absurd hnone hne
    · obtain ⟨device, value, hlatest, hvalue⟩ := hfields key hkey
      rw [EditedMaster.editsOf_published, EditedMaster.latest_fieldText] at hlatest
      obtain ⟨master, hmaster, rfl⟩ := Option.map_eq_some_iff.mp hlatest
      refine ⟨device, master, hmaster, ?_⟩
      obtain ⟨d, hd, hid⟩ := hend.mem
      have hshows := (EditedMaster.agrees_iff_fieldText shown d.data).mp (hshown d hd hid) key hkey
      rw [← hshows, hend.texts d hd hid]
      exact hvalue
  · intro hgiven
    obtain ⟨ws, a, ha, hqueues, hrecord⟩ := Interleaved.exists_mixture EditedMaster.masterKeys
      before.text (by decide)
      (edits.map (fun e => (e.1, EditedMaster.fieldText e.2))) (EditedMaster.fieldText shown)
      (fun key hkey => by
        obtain ⟨device, master, hmaster, htext⟩ := hgiven key hkey
        refine ⟨device, EditedMaster.fieldText master, ?_, htext⟩
        rw [EditedMaster.latest_fieldText, hmaster, Option.map_some])
    rw [← EditedMaster.map_toEvent_schedule] at ha
    obtain ⟨s', hs', hend⟩ := EventMachine.exec_lockstep_right hstep hmirrors ha
    refine ⟨_, s', hs', EditedMaster.published_schedule edits ws, ?_, ?_⟩
    · intro device
      rw [hend.queues]
      exact hqueues device
    · intro d hd hid
      rw [EditedMaster.agrees_iff_fieldText]
      intro key hkey
      rw [hend.texts d hd hid, hrecord key hkey]

/-- Two devices edit all fields of a master. -/
def salonMaster : Master :=
  { name := "Анна", profil := "Косметолог", info := "Стаж 5 лет", imageURL := "https://images/anna" }

def retitledMaster : Master :=
  { name := "Анна К.", profil := "Визажист", info := "Стаж 6 лет", imageURL := "https://images/new" }

/-- The name may be the one and the profile the other one. -/
theorem concurrent_edits_mix_two : ∃ (es : List EditedMasterEvent) (s' : EditedMaster),
    (editedMaster "1" []).exec ⟨[⟨"1", []⟩], fun _ => []⟩ es = some s' ∧
      EditedMaster.published es = [(0, salonMaster), (1, retitledMaster)] ∧
      (∀ device, s'.sent device = []) ∧
      ∀ d ∈ s'.content, d.documentID = "1" →
        Master.Agrees { salonMaster with profil := retitledMaster.profil } d.data := by
  refine (concurrent_edits_mix "1" [] ⟨[⟨"1", []⟩], fun _ => []⟩ ?_
    [(0, salonMaster), (1, retitledMaster)] (List.cons_ne_nil _ _) _).mpr ?_
  · exact ⟨List.mem_singleton_self _, fun d hd _ => by rw [List.mem_singleton.mp hd], fun _ => rfl⟩
  · refine ⟨⟨0, salonMaster, ?_, rfl⟩, ⟨1, retitledMaster, ?_, rfl⟩, ⟨0, salonMaster, ?_, rfl⟩,
      ⟨0, salonMaster, ?_, rfl⟩⟩
    all_goals decide

end Flamingo
