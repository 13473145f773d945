import Flamingo.DBManager.MasterIds
import Flamingo.Lib.Fold
import Flamingo.Lib.Machine
import Flamingo.Lib.Moves

set_option autoImplicit false

/-! # The two lists of masters

The service editor has the masters of the new service in one array and all others in a second one,
and shows a copy of one of them in its table. The flag that decides which way a swipe moves a master
is set with the segment. It is not set by `viewDidLoad`, but the table is empty until then.
-/

namespace Flamingo

open Moves (Move)

structure MasterLists where
  arrayMasterAll : Results Master
  arrayMasterAdded : Results Master
  arrayMaster : Results Master
  deleteOrChange : Bool
  /-- the masters in the rows that were swiped, and what was offered there -/
  moves : List (Move (Nat × Master))

namespace MasterLists

/-- `viewDidLoad` -/
def viewDidLoad (results : Results Master) : MasterLists :=
  let start : MasterLists := ⟨[], [], [], false, []⟩
  results.foldl (fun s result => { s with arrayMasterAll := s.arrayMasterAll ++ [result] }) start

def getArrayMaster (s : MasterLists) (arrayMasterFor : Results Master) : MasterLists :=
  arrayMasterFor.foldl (fun s master => { s with arrayMaster := s.arrayMaster ++ [master] })
    { s with arrayMaster := [] }

def indexChanged (s : MasterLists) (selectedSegmentIndex : Int) : MasterLists :=
  match selectedSegmentIndex with
  | 1 =>
      let s := { s with deleteOrChange := false }
      s.getArrayMaster s.arrayMasterAll
  | 0 =>
      let s := { s with deleteOrChange := true }
      s.getArrayMaster s.arrayMasterAdded
  | _ => s

/-- The action `addItem` of a row; `remove(at:)` traps on a row that is not there. -/
def addItem (s : MasterLists) (row : Nat) : Option MasterLists := do
  let master ← s.arrayMasterAll[row]?
  let s := { s with arrayMasterAll := s.arrayMasterAll.eraseIdx row }
  let s := { s with arrayMasterAdded := s.arrayMasterAdded ++ [master] }
  some (s.getArrayMaster s.arrayMasterAll)

/-- The action `deleteItem` of a row. -/
def deleteItem (s : MasterLists) (row : Nat) : Option MasterLists := do
  let master ← s.arrayMasterAdded[row]?
  let s := { s with arrayMasterAdded := s.arrayMasterAdded.eraseIdx row }
  let s := { s with arrayMasterAll := s.arrayMasterAll ++ [master] }
  some (s.getArrayMaster s.arrayMasterAdded)

/-- The action that `trailingSwipeActionsConfigurationForRowAt` offers, carried out. -/
def swipe (s : MasterLists) (row : Nat) : Option MasterLists :=
  if s.deleteOrChange then s.deleteItem row else s.addItem row

end MasterLists

inductive MasterListsEvent
  | indexChanged (selectedSegmentIndex : Int)
  | swipe (row : Nat)

/-- The editor, from the masters that are stored when it is opened. A swipe is made on a row of the
table, and carried out before the segment changes. -/
def masterLists (masters : Table Master) : EventMachine MasterLists MasterListsEvent where
  init s := s = .viewDidLoad masters.objects
  step s e := match e with
    | .indexChanged selectedSegmentIndex => some (s.indexChanged selectedSegmentIndex)
    | .swipe row => do
        let master ← s.arrayMaster[row]?
        let s' ← s.swipe row
        some { s' with
          moves := s.moves ++ [if s.deleteOrChange then .remove master else .add master] }

namespace MasterLists

/-! ## The property -/

/-- The list that the action which is offered removes from, and the other one. -/
def source (s : MasterLists) : Results Master :=
  if s.deleteOrChange then s.arrayMasterAdded else s.arrayMasterAll

def target (s : MasterLists) : Results Master :=
  if s.deleteOrChange then s.arrayMasterAll else s.arrayMasterAdded

structure NoneLost (masters : Table Master) (s : MasterLists) : Prop where
  perm : (s.arrayMasterAll ++ s.arrayMasterAdded).Perm masters.objects
  shown : s.arrayMaster = [] ∨ s.arrayMaster = s.source
  /-- a swipe does not trap, and moves the master in the row -/
  swiped : ∀ row master, s.arrayMaster[row]? = some master → ∃ s', s.swipe row = some s' ∧
    s.source[row]? = some master ∧ s'.deleteOrChange = s.deleteOrChange ∧
    s'.source = s.source.erase master ∧ s'.target = s.target ++ [master]
  /-- the added masters, each once and in the order in which they were added -/
  added : s.arrayMasterAdded = Moves.chosen s.moves ∧ (Moves.chosen s.moves).Nodup
  ids : (AddNewServiceVC.getMasterIds (s.arrayMasterAdded.map Prod.snd)).toList
    = Separated.pack ',' ((Moves.chosen s.moves).map (fun master => master.2.id.toList))

/-! ## The handlers -/

theorem viewDidLoad_eq (results : Results Master) :
    viewDidLoad results = ⟨results, [], [], false, []⟩ := by
  unfold viewDidLoad
  refine (PushFold.foldl_push (fun all => MasterLists.mk all [] [] false []) id ?_ results []).trans ?_
  · intro acc master
    rfl
  · rw [List.map_id, List.nil_append]

/-- The loop copies the list into the table. -/
theorem getArrayMaster_eq (s : MasterLists) (arrayMasterFor : Results Master) :
    s.getArrayMaster arrayMasterFor = { s with arrayMaster := arrayMasterFor } := by
  unfold getArrayMaster
  refine (PushFold.foldl_push (fun shown => { s with arrayMaster := shown }) id ?_
    arrayMasterFor []).trans ?_
  · intro acc master
    rfl
  · rw [List.map_id, List.nil_append]

theorem indexChanged_eq (s : MasterLists) (selectedSegmentIndex : Int) :
    s.indexChanged selectedSegmentIndex = s ∨
      ∃ flag, s.indexChanged selectedSegmentIndex = { s with
        deleteOrChange := flag
        arrayMaster := if flag then s.arrayMasterAdded else s.arrayMasterAll } := by
  unfold indexChanged
  split
  · exact Or.inr ⟨false, by rw [getArrayMaster_eq]; rfl⟩
  · exact Or.inr ⟨true, by rw [getArrayMaster_eq]; rfl⟩
  · exact Or.inl rfl

/-- **A swipe** on a row of the list that is shown. -/
theorem swipe_eq {s : MasterLists} {row : Nat} {master : Nat × Master}
    (h : s.source[row]? = some master) :
    s.swipe row = some (if s.deleteOrChange then
      { s with
        arrayMasterAdded := s.arrayMasterAdded.eraseIdx row
        arrayMasterAll := s.arrayMasterAll ++ [master]
        arrayMaster := s.arrayMasterAdded.eraseIdx row }
      else
      { s with
        arrayMasterAll := s.arrayMasterAll.eraseIdx row
        arrayMasterAdded := s.arrayMasterAdded ++ [master]
        arrayMaster := s.arrayMasterAll.eraseIdx row }) := by
  unfold swipe
  cases hflag : s.deleteOrChange with
  | true =>
      rw [source, hflag] at h
      rw [if_pos rfl, if_pos rfl, deleteItem, show s.arrayMasterAdded[row]? = some master from h]
      simp only [Option.bind_eq_bind, Option.bind_some, getArrayMaster_eq, hflag]
  | false =>
      rw [source, hflag] at h
      rw [if_neg Bool.false_ne_true, if_neg Bool.false_ne_true, addItem,
        show s.arrayMasterAll[row]? = some master from h]
      simp only [Option.bind_eq_bind, Option.bind_some, getArrayMaster_eq, hflag]

/-! ## The invariant -/

/-- No master is lost, the table is in step with the flag, and the added masters are those that the
history of the swipes has chosen. -/
structure ListsInv (masters : Table Master) (s : MasterLists) : Prop where
  perm : (s.arrayMasterAll ++ s.arrayMasterAdded).Perm masters.objects
  shown : s.arrayMaster = [] ∨ s.arrayMaster = s.source
  added : s.arrayMasterAdded = Moves.chosen s.moves

/-- The objects of a class are different objects. -/
theorem nodup_objects (masters : Table Master) : masters.objects.Nodup :=
  List.Nodup.of_map Prod.fst masters.nodup

theorem ListsInv.nodup {masters : Table Master} {s : MasterLists} (hi : ListsInv masters s) :
    s.arrayMasterAll.Nodup ∧ s.arrayMasterAdded.Nodup := by
  have hnodup := hi.perm.nodup_iff.mpr (nodup_objects masters)
  exact ⟨hnodup.of_append_left, hnodup.of_append_right⟩

/-- **The row of a swipe** is a row of the list that the action removes from. -/
theorem ListsInv.source_row {masters : Table Master} {s : MasterLists} (hi : ListsInv masters s)
    {row : Nat} {master : Nat × Master} (h : s.arrayMaster[row]? = some master) :
    s.source[row]? = some master := by
  rcases hi.shown with hempty | hshown
  · rw [hempty] at h
    cases h
  · rw [← hshown]
    exact h

theorem listsInv_init {masters : Table Master} {s : MasterLists} (h : (masterLists masters).init s) :
    ListsInv masters s := by
  obtain rfl : s = viewDidLoad masters.objects := h
  rw [viewDidLoad_eq]
  refine ⟨?_, Or.inl rfl, rfl⟩
  rw [List.append_nil]

/-- **A swipe** puts the master at the end of the other list, and into the history. -/
theorem listsInv_swipe {masters : Table Master} {s t : MasterLists} {row : Nat}
    {master : Nat × Master} (hi : ListsInv masters s) (hrow : s.source[row]? = some master)
    (h : s.swipe row = some t) :
    ListsInv masters { t with
      moves := s.moves ++ [if s.deleteOrChange then .remove master else .add master] } := by
  obtain rfl := Option.some.inj ((swipe_eq hrow).symm.trans h)
  cases hflag : s.deleteOrChange with
  | true =>
      have hadded : s.arrayMasterAdded[row]? = some master := by
        rw [source, hflag] at hrow
        exact hrow
      simp only [if_true]
      refine ⟨?_, Or.inr (by simp [source]), ?_⟩
      · -- the same masters, seen from the list that is shown
        refine (List.perm_append_comm.trans ?_).trans hi.perm
        exact (Moves.perm_of_move hadded _).trans List.perm_append_comm
      · rw [Moves.chosen_concat, ← hi.added]
        exact Moves.eraseIdx_eq_erase hi.nodup.2 hadded
  | false =>
      have hall : s.arrayMasterAll[row]? = some master := by
        rw [source, hflag] at hrow
        exact hrow
      simp only [Bool.false_eq_true, if_false]
      refine ⟨(Moves.perm_of_move hall _).trans hi.perm, Or.inr (by simp [source]), ?_⟩
      rw [Moves.chosen_concat, ← hi.added]
      rfl

theorem listsInv_step {masters : Table Master} {s s' : MasterLists} {e : MasterListsEvent}
    (hi : ListsInv masters s) (h : (masterLists masters).step s e = some s') :
    ListsInv masters s' := by
  cases e with
  | indexChanged selectedSegmentIndex =>
      obtain rfl : s.indexChanged selectedSegmentIndex = s' := Option.some.inj h
      rcases s.indexChanged_eq selectedSegmentIndex with heq | ⟨flag, heq⟩
      · rw [heq]
        exact hi
      · rw [heq]
        exact ⟨hi.perm, Or.inr rfl, hi.added⟩
  | swipe row =>
      obtain ⟨master, hmaster, h⟩ := Option.bind_eq_some_iff.mp h
      obtain ⟨t, ht, h⟩ := Option.bind_eq_some_iff.mp h
      obtain rfl := Option.some.inj h
      exact listsInv_swipe hi (hi.source_row hmaster) ht

theorem ListsInv.swiped {masters : Table Master} {s : MasterLists} (hi : ListsInv masters s)
    {row : Nat} {master : Nat × Master} (h : s.arrayMaster[row]? = some master) :
    ∃ s', s.swipe row = some s' ∧ s.source[row]? = some master ∧
      s'.deleteOrChange = s.deleteOrChange ∧ s'.source = s.source.erase master ∧
      s'.target = s.target ++ [master] := by
  have hrow := hi.source_row h
  refine ⟨_, swipe_eq hrow, hrow, ?_⟩
  have herase : s.source.eraseIdx row = s.source.erase master := by
    refine Moves.eraseIdx_eq_erase ?_ hrow
    unfold source
    split_ifs
    · exact hi.nodup.2
    · exact hi.nodup.1
  rw [← herase]
  cases hflag : s.deleteOrChange with
  | true => simp [source, target, hflag]
  | false => simp [source, target, hflag]

/-- **No master is lost** by any run of segment changes and swipes, every swipe moves the master in
its row, and the ids are those of the added masters in order. -/
theorem noneLost_of_reachable {masters : Table Master} {s : MasterLists}
    (h : (masterLists masters).Reachable s) : NoneLost masters s := by
  have hi : ListsInv masters s := h.invariant (ListsInv masters) (fun s h0 => listsInv_init h0)
    (fun s e s' hi _ hs => listsInv_step hi hs)
  refine ⟨hi.perm, hi.shown, fun row master hrow => hi.swiped hrow,
    ⟨hi.added, hi.added ▸ hi.nodup.2⟩, ?_⟩
  rw [toList_getMasterIds, List.map_map, hi.added]
  rfl

/-- Two masters with one name. -/
def twoMasters : Table Master :=
  (Table.empty.saveObjectRealm { id := "a", name := "Olga" }).saveObjectRealm
    { id := "b", name := "Olga" }

/-- Both masters are added, the second one first, and that one is taken back. -/
theorem noneLost_twoMasters : ∃ s, (masterLists twoMasters).Reachable s ∧
    s.arrayMasterAdded.map (·.2.id) = ["a"] ∧ s.arrayMasterAll.map (·.2.id) = ["b"] ∧
    NoneLost twoMasters s := by
  have hrun : ((masterLists twoMasters).exec (.viewDidLoad twoMasters.objects)
      [.indexChanged 1, .swipe 1, .swipe 0, .indexChanged 0, .swipe 0]).map
        (fun s => (s.arrayMasterAdded.map (·.2.id), s.arrayMasterAll.map (·.2.id)))
      = some (["a"], ["b"]) := by decide
  obtain ⟨s, hs, hend⟩ := Option.map_eq_some_iff.mp hrun
  have hreach := EventMachine.reachable_of_exec _ rfl hs
  exact ⟨s, hreach, (Prod.mk.inj hend).1, (Prod.mk.inj hend).2, noneLost_of_reachable hreach⟩

end MasterLists

end Flamingo
