import Flamingo.Lib.Trap
import Flamingo.DBManager.Passes
import Flamingo.DBManager.FirebaseManager

set_option autoImplicit false

/-! # Where a pass traps

`URL(string:)` may refuse an image URL, the bytes of a discont or a category may be no image, and
the comparison of a master casts the fields of its document. The first pass over a master does not
look at the fields that a later one casts.
-/

namespace Flamingo

namespace SyncState

variable {c : RealmClass}

/-- A download can only complete when it is pending. -/
def enabled (s : SyncState c) : SyncEvent → Bool
  | .snapshot _ => true
  | .snapshotError => true
  | .complete i _ => decide (i < s.pending.length)

/-- A document whose turn it is, with these objects stored: its image URL is accepted if it finds no
object, and the comparison with an object that it finds comes to an end, with an image URL that is
accepted if there is a difference. -/
def HarmlessFor (isURL : String → Bool) (objects : List (Nat × c.Object)) (d : Document) : Prop :=
  ((∀ o ∈ objects, Text.containsC (c.id o.2) d.documentID = false) → urlAccepted isURL d = true) ∧
  ∀ o ∈ objects, Text.containsC (c.id o.2) d.documentID = true →
    c.changed o.2 d.data ≠ none ∧ (c.changed o.2 d.data = some true → urlAccepted isURL d = true)

/-- A snapshot each of whose documents is harmless for the objects that those before it have left,
and a download whose bytes are an image, for the classes that do not look. -/
def Harmless (isURL : String → Bool) (s : SyncState c) : SyncEvent → Prop
  | .snapshot documents => ∀ before d after, documents = before ++ d :: after →
      HarmlessFor isURL (leftBy before s.table.objects) d
  | .snapshotError => True
  | .complete _ download => c.trapsOnBadImage = true → ∀ data, download ≠ .bytes data false

theorem comparable_iff {isURL : String → Bool} {d : Document} {o : Nat × c.Object} :
    comparable c isURL d o = true ↔ c.changed o.2 d.data ≠ none ∧
      (c.changed o.2 d.data = some true → urlAccepted isURL d = true) := by
  unfold comparable
  cases c.changed o.2 d.data with
  | none => simp
  | some changed => cases changed <;> simp

theorem accepts_iff {isURL : String → Bool} {objects : List (Nat × c.Object)} {d : Document} :
    accepts isURL objects d = true ↔ HarmlessFor isURL objects d := by
  unfold accepts acceptsAll HarmlessFor
  split_ifs with hnone
  · have hnot : ∀ o ∈ objects, Text.containsC (c.id o.2) d.documentID = false := by
      intro o ho
      have hnil := List.eq_nil_of_length_eq_zero hnone
      exact Bool.not_eq_true _ ▸ List.filter_eq_nil_iff.mp hnil o ho
    constructor
    · intro hurl
      refine ⟨fun _ => hurl, ?_⟩
      intro o ho hfound
      rw [hnot o ho] at hfound
      cases hfound
    · intro h
      exact h.1 hnot
  · rw [List.all_eq_true]
    constructor
    · intro hall
      constructor
      · intro hnot
        refine absurd ?_ hnone
        rw [List.length_eq_zero_iff]
        refine List.filter_eq_nil_iff.mpr (fun o ho => ?_)
        rw [hnot o ho]
        exact Bool.false_ne_true
      · intro o ho hfound
        exact comparable_iff.mp (hall o (List.mem_filter.mpr ⟨ho, hfound⟩))
    · intro h o ho
      obtain ⟨hmem, hfound⟩ := List.mem_filter.mp ho
      exact comparable_iff.mpr (h.2 o hmem hfound)

/-- **One step** traps exactly when it is not harmless. -/
theorem step_isSome_iff (isURL : String → Bool) (s : SyncState c) (e : SyncEvent)
    (henabled : s.enabled e = true) : (s.step isURL e).isSome ↔ s.Harmless isURL e := by
  cases e with
  | snapshot documents =>
      refine (processSnapshot_isSome_iff s documents).trans ?_
      exact forall₄_congr (fun _ _ _ _ => accepts_iff)
  | snapshotError => exact iff_of_true rfl trivial
  | complete i download =>
      have hlt : i < s.pending.length := of_decide_eq_true henabled
      simp only [step, complete, List.getElem?_eq_getElem hlt, Option.bind_eq_bind,
        Option.bind_some, Harmless]
      cases download with
      | failed => simp
      | bytes data image =>
          cases image with
          | true => simp
          | false =>
              -- two of the classes unwrap the image by force, the others look first
              cases htraps : c.trapsOnBadImage with
              | true => simp
              | false => simp

end SyncState

/-- The comparison of a master with a document traps exactly if it comes to a field that is no
string before it finds a difference. -/
theorem masterChanged_eq_none_iff (normal : String → String) (master : Master) (data : DocData) :
    masterChanged normal master data = none ↔
      data.string? "name" = none ∨
      ((data.string? "name").map normal = some (normal master.name) ∧
        (data.string? "imageURL" = none ∨
      ((data.string? "imageURL").map normal = some (normal master.imageURL) ∧
        (data.string? "info" = none ∨
      ((data.string? "info").map normal = some (normal master.info) ∧
        data.string? "profil" = none))))) := by
  unfold masterChanged
  -- a field is cast only if the fields before it are the same
  cases data.string? "name" with
  | none => simp
  | some name =>
      by_cases hname : normal master.name = normal name
      · cases data.string? "imageURL" with
        | none => simp [hname]
        | some imageURL =>
            by_cases hurl : normal master.imageURL = normal imageURL
            · cases data.string? "info" with
              | none => simp [hname, hurl]
              | some info =>
                  by_cases hinfo : normal master.info = normal info
                  · cases data.string? "profil" with
                    | none => simp [hname, hurl, hinfo]
                    | some profil => simp [hname, hurl, hinfo]
                  · simp [hname, hurl, hinfo, Ne.symm hinfo]
            · simp [hname, hurl, Ne.symm hurl]
      · simp [hname, Ne.symm hname]

/-! ## The runs -/

/-- Any number of passes and downloads of a class, from any store. -/
def syncing (c : RealmClass) (isURL : String → Bool) :
    EventMachine (Process (SyncState c)) SyncEvent :=
  Process.machine (fun s => s.pending = []) SyncState.enabled (SyncState.step isURL)

/-- **The passes that do not trap** are those whose steps are all harmless; for masters, this asks
of each document that finds an object that the comparison comes to no field that is no string. -/
theorem neverTraps_iff_reach (normal : String → String) (k : SyncClass) (isURL : String → Bool)
    (p : Process (SyncState (k.realmClassUpTo normal)))
    (h : (syncing (k.realmClassUpTo normal) isURL).Reachable p) :
    (p ≠ .trapped ↔ (syncing (k.realmClassUpTo normal) isURL).Reach
      (Process.Meets (SyncState.Harmless isURL)) p) ∧
    ∀ (master : Master) (data : DocData), (masterClassUpTo normal).changed master data = none ↔
      data.string? "name" = none ∨
      ((data.string? "name").map normal = some (normal master.name) ∧
        (data.string? "imageURL" = none ∨
      ((data.string? "imageURL").map normal = some (normal master.imageURL) ∧
        (data.string? "info" = none ∨
      ((data.string? "info").map normal = some (normal master.info) ∧
        data.string? "profil" = none))))) :=
  ⟨Process.ne_trapped_iff_reach (SyncState.step_isSome_iff isURL) h,
    masterChanged_eq_none_iff normal⟩

def noMasters : SyncState masterClass := ⟨Table.empty, [], none⟩

theorem init_noMasters (isURL : String → Bool) :
    (syncing masterClass isURL).init (.running noMasters) := ⟨noMasters, rfl, rfl⟩

def manicurist : Master where
  name := "Anna"
  profil := "nails"
  info := "since 2015"
  imageURL := "https://anna"

/-- A master is fetched, and its document changes before the next pass. -/
theorem neverTraps_changed : ∃ p, (syncing masterClass (fun _ => true)).Reach
    (Process.Meets (SyncState.Harmless (fun _ => true))) p ∧
    p.running?.map (·.ids) = some ["1"] := by
  have hrun : ((syncing masterClass (fun _ => true)).exec (.running noMasters)
      [.snapshot [⟨"1", saveMasterToFirebase manicurist⟩], .complete 0 (.bytes [1] true),
        .snapshot [⟨"1", saveMasterToFirebase { manicurist with profil := "hair" }⟩],
        .complete 0 (.bytes [1] true)]).map (fun p => p.running?.map (·.ids))
      = some (some ["1"]) := by decide
  obtain ⟨p, hp, hids⟩ := Option.map_eq_some_iff.mp hrun
  refine ⟨p, (neverTraps_iff_reach id .master _ p ?_).1.mp ?_, hids⟩
  · exact EventMachine.reachable_of_exec _ (init_noMasters _) hp
  · rintro rfl
    cases hids

/-- **The second pass.** A master that was written without its `info` is fetched by the first pass
and traps the second one. -/
theorem not_neverTraps : ¬ ∀ (normal : String → String) (k : SyncClass) (isURL : String → Bool)
    (p : Process (SyncState (k.realmClassUpTo normal))),
    (syncing (k.realmClassUpTo normal) isURL).Reachable p → p ≠ .trapped := by
  intro hall
  have hrun : ((syncing masterClass (fun _ => true)).exec (.running noMasters)
      [.snapshot [⟨"1", saveObjectOfFirebase manicurist⟩], .complete 0 (.bytes [1] true),
        .snapshot [⟨"1", saveObjectOfFirebase manicurist⟩]]).map (fun p => p.running?.isNone)
      = some true := by decide
  obtain ⟨p, hp, hnone⟩ := Option.map_eq_some_iff.mp hrun
  have hreach := EventMachine.reachable_of_exec _ (init_noMasters _) hp
  refine hall id .master _ p hreach (Process.running?_eq_none_iff.mp ?_)
  exact Option.isNone_iff_eq_none.mp hnone

end Flamingo
