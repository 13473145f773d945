import Flamingo.Lib.Ledger
import Flamingo.Lib.Trap
import Flamingo.RegistrationPage.RegistrationVC

set_option autoImplicit false

/-! # Accounts and phone numbers

Any number of registration screens, on any number of devices, ask for the users with a number and
add a document if there is none. The server answers a query with the users at one moment between
the request and the arrival, and adds the documents one at a time, some time after the handler has
sent them.

A registration has been compared with the users that the server had read for its query, and not at
all if the person has another number by the time the answer arrives. So two documents with one
number get into the collection exactly if one is added that conflicts with what it has not been
compared with.
-/

namespace Flamingo

/-- A query for a number. Once the server has answered: the documents, and the number of users there
were. -/
structure NumberQuery where
  number : String
  answer : Option (List Document × Nat)

structure RegistrationScreen where
  persons : Table Person
  person : ManagedObject Person
  queries : List NumberQuery

/-- A document on its way to the server, the number that was asked for and the number of users that
were there. -/
structure Registering where
  data : DocData
  number : String
  seen : Nat

structure Registrations where
  users : List Document
  screens : Nat → Process RegistrationScreen
  adding : List Registering

inductive RegistrationEvent
  | nextAction (screen : Nat) (nameClientReg infoTextField : String)
  | answer (screen i : Nat)
  | received (screen i : Nat)
  | receivedError (screen i : Nat)
  | added (i : Nat) (documentID : String)
  | addedError (i : Nat)

/-! ## The steps of a screen -/

namespace RegistrationScreen

def nextAction (r : RegistrationScreen) (nameClientReg infoTextField : String) :
    Process RegistrationScreen :=
  match RegistrationVC.nextAction r.person nameClientReg infoTextField with
  | .ok (person, asked) => .running { r with
      person, queries := r.queries ++ asked.toList.map (fun number => ⟨number, none⟩) }
  | .error _ => .trapped

/-- The server reads the users for a query. -/
def answer (r : RegistrationScreen) (users : List Document) (i : Nat) : Option RegistrationScreen :=
  match r.queries[i]? with
  | some ⟨number, none⟩ => some { r with
      queries := r.queries.set i ⟨number,
        some ((RegistrationVC.usersWithNumber number).getDocuments users, users.length)⟩ }
  | _ => none

/-- The handler of an answer, and what it sends. -/
def received (r : RegistrationScreen) (i : Nat) :
    Option (Process RegistrationScreen × List Registering) :=
  match r.queries[i]? with
  | some ⟨number, some (documents, seen)⟩ =>
      -- the person is read now, the number was asked for at the press
      match RegistrationVC.received r.persons r.person documents with
      | .ok answer => some (.running ⟨answer.persons, answer.person, r.queries.eraseIdx i⟩,
          answer.added.toList.map (fun data => ⟨data, number, seen⟩))
      | .error _ => some (.trapped, [])
  | _ => none

def receivedError (r : RegistrationScreen) (i : Nat) : RegistrationScreen :=
  { r with queries := r.queries.eraseIdx i }

end RegistrationScreen

namespace Registrations

/-- A step of a screen whose process has not ended. -/
def goTo (s : Registrations) (screen : Nat)
    (f : RegistrationScreen → Option (Process RegistrationScreen × List Registering)) :
    Option Registrations :=
  match s.screens screen with
  | .running r => (f r).map (fun next => { s with
      screens := Function.update s.screens screen next.1, adding := s.adding ++ next.2 })
  | .trapped => none

def step (s : Registrations) : RegistrationEvent → Option Registrations
  | .nextAction screen nameClientReg infoTextField =>
      s.goTo screen (fun r => some (r.nextAction nameClientReg infoTextField, []))
  | .answer screen i => s.goTo screen (fun r => (r.answer s.users i).map (fun r => (.running r, [])))
  | .received screen i => s.goTo screen (fun r => r.received i)
  | .receivedError screen i => s.goTo screen (fun r => some (.running (r.receivedError i), []))
  | .added i documentID => s.adding[i]?.map (fun r => { s with
      users := addDocument s.users documentID r.data, adding := s.adding.eraseIdx i })
  | .addedError i => some { s with adding := s.adding.eraseIdx i }

end Registrations

/-- New screens on any number of devices, for a collection with the users `start`. -/
def registrations (start : List Document) : EventMachine Registrations RegistrationEvent where
  init s := s.users = start ∧ s.adding = [] ∧
    ∀ screen, ∃ persons fields, s.screens screen = .running ⟨persons, ⟨fields, none⟩, []⟩
  step := Registrations.step

/-! ## The property and its condition -/

/-- `data["numberPhone"] as? String` -/
def Document.numberPhone (d : Document) : Option String := d.data.string? "numberPhone"

/-- Two documents with one number. -/
def SameNumber (d d' : Document) : Prop := d.numberPhone.isSome ∧ d.numberPhone = d'.numberPhone

instance (d d' : Document) : Decidable (SameNumber d d') :=
  inferInstanceAs (Decidable (d.numberPhone.isSome ∧ d.numberPhone = d'.numberPhone))

/-- The number of users that a registration has been compared with: those that were there, if the
person still has the number that was asked for. -/
def Registering.compared (r : Registering) : Nat :=
  if r.data.string? "numberPhone" = some r.number then r.seen else 0

namespace Registrations

def OneAccount (s : Registrations) : Prop := Ledger.Consistent SameNumber s.users

/-- No user that a registration has not been compared with has its number when it is added. -/
def Undisturbed (s : Registrations) : RegistrationEvent → Prop
  | .added i documentID => ∀ r ∈ s.adding[i]?, ∀ d ∈ s.users.drop r.compared,
      ¬ SameNumber d ⟨documentID, r.data⟩
  | _ => True

end Registrations

/-! ## What a registration has been compared with -/

/-- An answer is what the query found among the users that were there. -/
def NumberQuery.Sound (users : List Document) (q : NumberQuery) : Prop :=
  ∀ answer ∈ q.answer, answer.2 ≤ users.length ∧
    answer.1 = (RegistrationVC.usersWithNumber q.number).getDocuments (users.take answer.2)

/-- None of the users that were there has the number that was asked for. -/
def Registering.Sound (users : List Document) (r : Registering) : Prop :=
  r.seen ≤ users.length ∧ ∀ d ∈ users.take r.seen, d.numberPhone ≠ some r.number

theorem NumberQuery.Sound.append {users : List Document} {q : NumberQuery} (h : q.Sound users)
    (d : Document) : q.Sound (users ++ [d]) := by
  intro answer hanswer
  obtain ⟨hseen, hdocuments⟩ := h answer hanswer
  refine ⟨by rw [List.length_append]; omega, ?_⟩
  rw [List.take_append_of_le_length hseen]
  exact hdocuments

theorem Registering.Sound.append {users : List Document} {r : Registering} (h : r.Sound users)
    (d : Document) : r.Sound (users ++ [d]) := by
  obtain ⟨hseen, hnone⟩ := h
  refine ⟨by rw [List.length_append]; omega, ?_⟩
  rw [List.take_append_of_le_length hseen]
  exact hnone

/-- What a screen has been told is sound. -/
def ScreenSound (users : List Document) : Process RegistrationScreen → Prop
  | .running r => ∀ q ∈ r.queries, q.Sound users
  | .trapped => True

namespace RegistrationScreen

variable {users : List Document} {r : RegistrationScreen}

theorem sound_nextAction (h : ScreenSound users (.running r)) (nameClientReg infoTextField : String) :
    ScreenSound users (r.nextAction nameClientReg infoTextField) := by
  unfold nextAction
  split
  · rename_i person asked _
    intro q hq
    rcases List.mem_append.mp hq with hq | hq
    · exact h q hq
    · obtain ⟨number, -, rfl⟩ := List.mem_map.mp hq
      exact nofun
  · trivial

theorem sound_answer {i : Nat} {r' : RegistrationScreen} (h : ScreenSound users (.running r))
    (hanswer : r.answer users i = some r') : ScreenSound users (.running r') := by
  unfold answer at hanswer
  split at hanswer
  · rename_i number _
    obtain rfl := Option.some.inj hanswer
    intro q hq
    rcases List.mem_or_eq_of_mem_set hq with hq | rfl
    · exact h q hq
    · -- the users that the server reads are those there are now
      rintro _ hnew
      obtain rfl := Option.some.inj hnew
      exact ⟨le_refl _, by rw [List.take_length]⟩
  · cases hanswer

/-- **A registration that is sent** rests on an answer without a user. -/
theorem sound_received {i : Nat} {p : Process RegistrationScreen} {adding : List Registering}
    (h : ScreenSound users (.running r)) (hreceived : r.received i = some (p, adding)) :
    ScreenSound users p ∧ ∀ x ∈ adding, x.Sound users := by
  unfold received at hreceived
  split at hreceived
  · rename_i number documents seen hquery
    split at hreceived
    · rename_i answer hanswer
      obtain ⟨rfl, rfl⟩ := Prod.mk.inj (Option.some.inj hreceived)
      constructor
      · exact fun q hq => h q (List.mem_of_mem_eraseIdx hq)
      · intro x hx
        obtain ⟨data, hdata, rfl⟩ := List.mem_map.mp hx
        obtain ⟨hseen, hdocuments⟩ := h _ (List.mem_of_getElem? hquery) _ rfl
        refine ⟨hseen, ?_⟩
        intro d hd hnumber
        -- a document is sent only if the answer is empty
        rw [RegistrationVC.added_of_received hanswer] at hdata
        have hempty : documents = [] := by
          by_contra hne
          rw [if_neg (by simpa using hne)] at hdata
          cases hdata
        have hmem : d ∈ documents := by
          rw [show documents = _ from hdocuments]
          exact RegistrationVC.mem_usersWithNumber.mpr ⟨hd, hnumber⟩
        rw [hempty] at hmem
        cases hmem
    · obtain ⟨rfl, rfl⟩ := Prod.mk.inj (Option.some.inj hreceived)
      exact ⟨trivial, nofun⟩
  · cases hreceived

end RegistrationScreen

namespace Registrations

/-- Every screen and every registration on its way is sound. -/
structure Sound (s : Registrations) : Prop where
  screens : ∀ screen, ScreenSound s.users (s.screens screen)
  adding : ∀ r ∈ s.adding, r.Sound s.users

/-- A step of a screen adds no user. -/
theorem sound_goTo {s s' : Registrations} {screen : Nat}
    {f : RegistrationScreen → Option (Process RegistrationScreen × List Registering)}
    (hi : s.Sound) (h : s.goTo screen f = some s')
    (hf : ∀ r p adding, ScreenSound s.users (.running r) → f r = some (p, adding) →
      ScreenSound s.users p ∧ ∀ x ∈ adding, x.Sound s.users) :
    s'.Sound ∧ s'.users = s.users := by
  unfold goTo at h
  split at h
  · rename_i r hr
    obtain ⟨⟨p, adding⟩, hnext, rfl⟩ := Option.map_eq_some_iff.mp h
    obtain ⟨hp, hadding⟩ := hf r p adding (hr ▸ hi.screens screen) hnext
    refine ⟨⟨?_, ?_⟩, rfl⟩
    · show ∀ other, ScreenSound s.users (Function.update s.screens screen p other)
      rw [Function.forall_update_iff s.screens (fun _ => ScreenSound s.users)]
      exact ⟨hp, fun other _ => hi.screens other⟩
    · intro x hx
      rcases List.mem_append.mp hx with hx | hx
      · exact hi.adding x hx
      · exact hadding x hx
  · cases h

/-- **What a step does**: it adds no user, or a registration on its way. -/
theorem step_cases {s s' : Registrations} {e : RegistrationEvent} (hi : s.Sound)
    (h : s.step e = some s') :
    (s'.Sound ∧ s'.users = s.users ∧ ∀ i documentID, e ≠ .added i documentID) ∨
    ∃ i documentID r, e = .added i documentID ∧ s.adding[i]? = some r ∧
      s' = { s with
        users := addDocument s.users documentID r.data, adding := s.adding.eraseIdx i } := by
  cases e with
  | nextAction screen nameClientReg infoTextField =>
      obtain ⟨hsound, husers⟩ := sound_goTo hi h (by
        intro r p adding hr hnext
        obtain ⟨rfl, rfl⟩ := Prod.mk.inj (Option.some.inj hnext)
        exact ⟨RegistrationScreen.sound_nextAction hr _ _, nofun⟩)
      exact Or.inl ⟨hsound, husers, nofun⟩
  | answer screen i =>
      obtain ⟨hsound, husers⟩ := sound_goTo hi h (by
        intro r p adding hr hnext
        obtain ⟨r', hanswer, heq⟩ := Option.map_eq_some_iff.mp hnext
        obtain ⟨rfl, rfl⟩ := Prod.mk.inj heq
        exact ⟨RegistrationScreen.sound_answer hr hanswer, nofun⟩)
      exact Or.inl ⟨hsound, husers, nofun⟩
  | received screen i =>
      obtain ⟨hsound, husers⟩ := sound_goTo hi h (fun _ _ _ hr => RegistrationScreen.sound_received hr)
      exact Or.inl ⟨hsound, husers, nofun⟩
  | receivedError screen i =>
      obtain ⟨hsound, husers⟩ := sound_goTo hi h (by
        intro r p adding hr hnext
        obtain ⟨rfl, rfl⟩ := Prod.mk.inj (Option.some.inj hnext)
        exact ⟨fun q hq => hr q (List.mem_of_mem_eraseIdx hq), nofun⟩)
      exact Or.inl ⟨hsound, husers, nofun⟩
  | added i documentID =>
      obtain ⟨r, hr, rfl⟩ := Option.map_eq_some_iff.mp h
      exact Or.inr ⟨i, documentID, r, rfl, hr, rfl⟩
  | addedError i =>
      obtain rfl := Option.some.inj h
      refine Or.inl ⟨⟨hi.screens, ?_⟩, rfl, nofun⟩
      exact fun r hr => hi.adding r (List.mem_of_mem_eraseIdx hr)

theorem sound_step {s s' : Registrations} {e : RegistrationEvent} (hi : s.Sound)
    (h : s.step e = some s') : s'.Sound := by
  rcases step_cases hi h with ⟨hsound, -, -⟩ | ⟨i, documentID, r, -, hr, rfl⟩
  · exact hsound
  · -- what was read before the new user is still a beginning of the collection
    refine ⟨?_, ?_⟩
    · intro screen
      have hscreen := hi.screens screen
      show ScreenSound (s.users ++ [⟨documentID, r.data⟩]) (s.screens screen)
      cases hcase : s.screens screen with
      | trapped => trivial
      | running x =>
          rw [hcase] at hscreen
          exact fun q hq => (hscreen q hq).append _
    · intro x hx
      exact (hi.adding x (List.mem_of_mem_eraseIdx hx)).append _

/-- A registration conflicts with no user that it has been compared with. -/
theorem not_sameNumber_of_compared {users : List Document} {r : Registering} (hi : r.Sound users)
    (documentID : String) :
    ∀ d ∈ users.take r.compared, ¬ SameNumber d ⟨documentID, r.data⟩ := by
  intro d hd hsame
  unfold Registering.compared at hd
  split_ifs at hd with hnumber
  · exact hi.2 d hd (hsame.2.trans hnumber)
  · -- the person's number is no longer the one that was asked for
    cases hd

/-- **One step** keeps the numbers different exactly if it is undisturbed. -/
theorem oneAccount_step {s s' : Registrations} {e : RegistrationEvent} (hi : s.Sound)
    (h : s.step e = some s') : s'.OneAccount ↔ s.OneAccount ∧ s.Undisturbed e := by
  rcases step_cases hi h with ⟨-, husers, hother⟩ | ⟨i, documentID, r, rfl, hr, rfl⟩
  · have hcond : s.Undisturbed e := by
      cases e with
      | added i documentID => exact absurd rfl (hother i documentID)
      | nextAction _ _ _ | answer _ _ | received _ _ | receivedError _ _ | addedError _ => trivial
    rw [OneAccount, OneAccount, husers]
    exact (and_iff_left hcond).symm
  · have hsound := hi.adding r (List.mem_of_getElem? hr)
    simp only [OneAccount, Undisturbed, hr, Option.mem_def, Option.some.injEq, forall_eq', addDocument]
    exact Ledger.consistent_append_iff (not_sameNumber_of_compared hsound documentID)

theorem sound_init {start : List Document} {s : Registrations} (h : (registrations start).init s) :
    s.Sound := by
  obtain ⟨-, hadding, hscreens⟩ := h
  constructor
  · intro screen
    obtain ⟨persons, fields, hscreen⟩ := hscreens screen
    rw [hscreen]
    exact nofun
  · rw [hadding]
    exact nofun

end Registrations

/-! ## The runs -/

/-- **One account per number** in exactly the runs in which no registration is added while a user
that it has not been compared with has its number. -/
theorem oneAccount_iff_reach {start : List Document} (hstart : Ledger.Consistent SameNumber start)
    (s : Registrations) (h : (registrations start).Reachable s) :
    s.OneAccount ↔ (registrations start).Reach Registrations.Undisturbed s := by
  refine h.iff_reach Registrations.Sound Registrations.OneAccount ?_
    (fun _ _ _ hi hs => Registrations.sound_step hi hs)
    (fun _ _ _ hi hs => Registrations.oneAccount_step hi hs)
  intro s h0
  refine ⟨Registrations.sound_init h0, ?_⟩
  rw [Registrations.OneAccount, h0.1]
  exact hstart

/-- New screens and no users. -/
def noUsers : Registrations where
  users := []
  screens _ := .running ⟨Table.empty, ⟨{}, none⟩, []⟩
  adding := []

theorem init_noUsers : (registrations []).init noUsers :=
  ⟨rfl, rfl, fun _ => ⟨_, _, rfl⟩⟩

/-- Two devices one after the other: the second one finds the user of the first. -/
theorem oneAccount_one_by_one : ∃ s, (registrations []).Reachable s ∧
    s.users.map Document.numberPhone = [some "+7 (900) 000-0000"] ∧
    (s.OneAccount ↔ (registrations []).Reach Registrations.Undisturbed s) := by
  have hrun : ((registrations []).exec noUsers
      [.nextAction 0 "Anna" "+7 (900) 000-0000", .answer 0 0, .received 0 0, .added 0 "first",
        .nextAction 1 "Anna" "+7 (900) 000-0000", .answer 1 0, .received 1 0]).map
        (fun s => (s.users.map Document.numberPhone, s.adding.length))
      = some ([some "+7 (900) 000-0000"], 0) := by decide
  obtain ⟨s, hs, hend⟩ := Option.map_eq_some_iff.mp hrun
  have hreach := EventMachine.reachable_of_exec _ init_noUsers hs
  exact ⟨s, hreach, (Prod.mk.inj hend).1, oneAccount_iff_reach Ledger.consistent_nil s hreach⟩

/-- **Two accounts.** Both devices are answered before either document is added. -/
theorem not_oneAccount : ¬ ∀ s, (registrations []).Reachable s → s.OneAccount := by
  intro hall
  have hrun : ((registrations []).exec noUsers
      [.nextAction 0 "Anna" "+7 (900) 000-0000", .nextAction 1 "Anna" "+7 (900) 000-0000",
        .answer 0 0, .answer 1 0, .received 0 0, .received 1 0,
        .added 0 "first", .added 0 "second"]).map (fun s => s.users.map Document.numberPhone)
      = some [some "+7 (900) 000-0000", some "+7 (900) 000-0000"] := by decide
  obtain ⟨s, hs, hnumbers⟩ := Option.map_eq_some_iff.mp hrun
  have hone := hall s (EventMachine.reachable_of_exec _ init_noUsers hs)
  refine Ledger.not_consistent_of_map_eq ?_ hnumbers hone
  intro d d' hd hd'
  refine ⟨?_, hd.trans hd'.symm⟩
  rw [hd]
  rfl

end Flamingo
