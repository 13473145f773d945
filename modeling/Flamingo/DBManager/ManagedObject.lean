import Flamingo.DBManager.StorageManager

set_option autoImplicit false

/-! # Objects before and after they are saved

A screen creates an object, assigns its fields and saves it. From then on the object is one of
Realm's: to assign a field of it outside `realm.write` traps, and to save it again does nothing.
-/

namespace Flamingo

/-- Why a process ends. -/
inductive Trap
  /-- a field of an object in Realm is assigned outside `realm.write` -/
  | assignment
  | other
  deriving DecidableEq, Repr

/-- The value of an optional that is unwrapped by force. -/
def unwrap {β : Type} : Option β → Except Trap β
  | none => .error .other
  | some b => .ok b

structure ManagedObject (α : Type) where
  fields : α
  /-- the key of the object in the table of its class, once it has been saved -/
  key : Option Nat
  deriving DecidableEq, Repr

namespace ManagedObject

variable {α : Type}

/-- Fields of the object are assigned, outside `realm.write`. -/
def assign (o : ManagedObject α) (f : α → α) : Except Trap (ManagedObject α) :=
  if o.key.isSome then .error .assignment else .ok { o with fields := f o.fields }

/-- `StorageManager.saveObject` and `saveObjectRealm` -/
def saveObject (o : ManagedObject α) (t : Table α) : Table α × ManagedObject α :=
  match o.key with
  | some _ => (t, o)
  | none => (t.saveObjectRealm o.fields, { o with key := some t.next })

theorem assign_of_none {o : ManagedObject α} (h : o.key = none) (f : α → α) :
    o.assign f = .ok { o with fields := f o.fields } := by
  unfold assign
  rw [h]
  rfl

theorem assign_of_isSome {o : ManagedObject α} (h : o.key.isSome) (f : α → α) :
    o.assign f = .error .assignment := if_pos h

/-- What is saved is in Realm. -/
theorem key_saveObject (o : ManagedObject α) (t : Table α) : (o.saveObject t).2.key.isSome := by
  unfold saveObject
  cases hkey : o.key with
  | none => rfl
  | some key => rw [hkey]; rfl

/-- A save adds the fields of the object, if anything. -/
theorem mem_saveObject {object : ManagedObject α} {t : Table α} {o : Nat × α}
    (h : o ∈ (object.saveObject t).1.objects) : o ∈ t.objects ∨ o.2 = object.fields := by
  unfold saveObject at h
  cases hkey : object.key with
  | some key =>
      rw [hkey] at h
      exact Or.inl h
  | none =>
      rw [hkey] at h
      rcases List.mem_append.mp h with h | h
      · exact Or.inl h
      · rw [List.mem_singleton.mp h]
        exact Or.inr rfl

@[simp] theorem fields_saveObject (o : ManagedObject α) (t : Table α) :
    (o.saveObject t).2.fields = o.fields := by
  unfold saveObject
  cases o.key <;> rfl

end ManagedObject

end Flamingo
