import Mathlib.Tactic

set_option autoImplicit false

/-! # Realm

The objects of a class in Realm. The classes of the program have no primary key, so two objects may
be equal in all their fields; an object that was fetched is the object itself and not its fields,
and `key` is what tells the objects of a table apart. A new object gets a key that no object has
had.
-/

namespace Flamingo

structure Table (α : Type) where
  /-- the keys and the fields of the objects -/
  objects : List (Nat × α)
  next : Nat
  key_lt : ∀ o ∈ objects, o.1 < next
  nodup : (objects.map Prod.fst).Nodup

namespace Table

variable {α : Type}

def empty : Table α where
  objects := []
  next := 0
  key_lt := by simp
  nodup := by simp

/-- `saveObjectRealm` -/
def saveObjectRealm (t : Table α) (newObject : α) : Table α where
  objects := t.objects ++ [(t.next, newObject)]
  next := t.next + 1
  key_lt := by
    intro o ho
    rcases List.mem_append.mp ho with ho | ho
    · exact Nat.lt_succ_of_lt (t.key_lt o ho)
    · rw [List.mem_singleton.mp ho]
      exact Nat.lt_succ_self t.next
  nodup := by
    rw [List.map_append, List.map_singleton, List.nodup_append]
    refine ⟨t.nodup, List.nodup_singleton _, ?_⟩
    rintro k hk k' hk' rfl
    obtain ⟨o, ho, rfl⟩ := List.mem_map.mp hk
    have := t.key_lt o ho
    rw [List.mem_singleton.mp hk'] at this
    exact Nat.lt_irrefl _ this

/-- `deleteObjectRealm` of the object with the key -/
def deleteObjectRealm (t : Table α) (key : Nat) : Table α where
  objects := t.objects.filter (fun o => o.1 != key)
  next := t.next
  key_lt o ho := t.key_lt o (List.mem_of_mem_filter ho)
  nodup := t.nodup.sublist (List.filter_sublist.map _)

theorem perm_moveLast (l : List α) (i : Nat) :
    (l.dropLast.take i ++ l.getLast?.toList ++ l.dropLast.drop i).Perm l := by
  have hrest : (l.dropLast.take i ++ l.dropLast.drop i) ++ l.getLast?.toList = l := by
    rw [List.take_append_drop]
    cases hlast : l.getLast? with
    | none => rw [List.getLast?_eq_none_iff.mp hlast, List.dropLast_nil, Option.toList_none, List.append_nil]
    | some a => exact List.dropLast_append_getLast? a hlast
  rw [List.append_assoc] at hrest ⊢
  refine (List.Perm.append_left _ List.perm_append_comm).trans ?_
  rw [hrest]

/-- Realm moves its last object to another place, as it does to fill a gap. -/
def moveLastTo (t : Table α) (i : Nat) : Table α where
  objects := t.objects.dropLast.take i ++ t.objects.getLast?.toList ++ t.objects.dropLast.drop i
  next := t.next
  key_lt o ho := t.key_lt o ((perm_moveLast t.objects i).subset ho)
  nodup := ((perm_moveLast t.objects i).map Prod.fst).symm.nodup t.nodup

theorem objects_moveLastTo {t : Table α} {l : List (Nat × α)} {last : Nat × α}
    (h : t.objects = l ++ [last]) (i : Nat) :
    (t.moveLastTo i).objects = l.take i ++ last :: l.drop i := by
  show t.objects.dropLast.take i ++ t.objects.getLast?.toList ++ t.objects.dropLast.drop i = _
  rw [h, List.dropLast_concat, List.getLast?_concat, Option.toList_some, List.append_assoc,
    List.singleton_append]

/-- The fields of the object with the key; to read an object that was deleted traps. -/
def read (t : Table α) (key : Nat) : Option α := t.objects.lookup key

/-- Fields of the object with the key are assigned inside `realm.write`. -/
def write (t : Table α) (key : Nat) (f : α → α) : Table α where
  objects := t.objects.map (fun o => if o.1 == key then (o.1, f o.2) else o)
  next := t.next
  key_lt := by
    intro o ho
    obtain ⟨o', ho', rfl⟩ := List.mem_map.mp ho
    have hlt := t.key_lt o' ho'
    split_ifs <;> exact hlt
  nodup := by
    have hkeys : (t.objects.map (fun o => if o.1 == key then (o.1, f o.2) else o)).map Prod.fst
        = t.objects.map Prod.fst := by
      rw [List.map_map]
      apply List.map_congr_left
      intro o _
      rw [Function.comp_apply]
      split_ifs <;> rfl
    rw [hkeys]
    exact t.nodup

theorem mem_deleteObjectRealm {t : Table α} {key : Nat} {o : Nat × α} :
    o ∈ (t.deleteObjectRealm key).objects ↔ o ∈ t.objects ∧ o.1 ≠ key := by
  simp [deleteObjectRealm]

/-! ## Reading -/

theorem read_eq_none_iff {t : Table α} {key : Nat} :
    t.read key = none ↔ ∀ o ∈ t.objects, o.1 ≠ key := by
  unfold read
  rw [List.lookup_eq_none_iff]
  apply forall₂_congr
  intro o _
  rw [bne_iff_ne, ne_comm]

theorem read_isSome_iff {t : Table α} {key : Nat} :
    (t.read key).isSome ↔ ∃ o ∈ t.objects, o.1 = key := by
  rw [← not_iff_not, Bool.not_eq_true, Option.isSome_eq_false_iff, Option.isNone_iff_eq_none,
    read_eq_none_iff]
  simp only [not_exists, not_and, ne_eq]

/-- What is read is a stored object. -/
theorem exists_of_read {t : Table α} {key : Nat} {a : α} (h : t.read key = some a) :
    ∃ o ∈ t.objects, o.1 = key ∧ o.2 = a := by
  obtain ⟨before, after, hobjects, -⟩ := List.lookup_eq_some_iff.mp h
  refine ⟨(key, a), ?_, rfl, rfl⟩
  rw [hobjects]
  simp

/-- Saving a new object changes no object that could have been there. -/
theorem read_saveObjectRealm {t : Table α} {key : Nat} (newObject : α) (h : key < t.next) :
    (t.saveObjectRealm newObject).read key = t.read key := by
  have hbeq : (key == t.next) = false := by simpa using h.ne
  unfold read saveObjectRealm
  rw [List.lookup_append, List.lookup_cons, hbeq, List.lookup_nil, Option.or_none]

theorem read_deleteObjectRealm_self (t : Table α) (key : Nat) :
    (t.deleteObjectRealm key).read key = none := by
  rw [read_eq_none_iff]
  intro o ho
  exact (mem_deleteObjectRealm.mp ho).2

theorem read_isSome_deleteObjectRealm {t : Table α} {key key' : Nat} :
    ((t.deleteObjectRealm key').read key).isSome ↔ (t.read key).isSome ∧ key ≠ key' := by
  simp only [read_isSome_iff, mem_deleteObjectRealm]
  constructor
  · rintro ⟨o, ⟨ho, hne⟩, rfl⟩
    exact ⟨⟨o, ho, rfl⟩, hne⟩
  · rintro ⟨⟨o, ho, rfl⟩, hne⟩
    exact ⟨o, ⟨ho, hne⟩, rfl⟩

theorem read_isSome_write (t : Table α) (key key' : Nat) (f : α → α) :
    ((t.write key' f).read key).isSome ↔ (t.read key).isSome := by
  simp only [read_isSome_iff, write, List.mem_map]
  constructor
  · rintro ⟨_, ⟨o, ho, rfl⟩, rfl⟩
    refine ⟨o, ho, ?_⟩
    split_ifs <;> rfl
  · rintro ⟨o, ho, rfl⟩
    refine ⟨_, ⟨o, ho, rfl⟩, ?_⟩
    split_ifs <;> rfl

/-- A deletion takes the object with the key away and no other. -/
theorem perm_deleteObjectRealm {t : Table α} {key : Nat} {a : α} (h : t.read key = some a) :
    t.objects.Perm ((key, a) :: (t.deleteObjectRealm key).objects) := by
  obtain ⟨before, after, hobjects, -⟩ := List.lookup_eq_some_iff.mp h
  have hnodup := t.nodup
  rw [hobjects, List.map_append, List.map_cons, List.nodup_middle, List.nodup_cons,
    ← List.map_append] at hnodup
  have hother : ∀ o ∈ before ++ after, (o.1 != key) = true := by
    intro o ho
    rw [bne_iff_ne]
    intro hkey
    exact hnodup.1 (List.mem_map.mpr ⟨o, ho, hkey⟩)
  have hrest : (t.deleteObjectRealm key).objects = before ++ after := by
    show t.objects.filter (fun o => o.1 != key) = before ++ after
    rw [hobjects, List.filter_append, List.filter_cons_of_neg (by simp), ← List.filter_append]
    exact List.filter_eq_self.mpr hother
  rw [hrest, hobjects]
  exact List.perm_middle

/-! ## Queries -/

/-- A write that keeps a property of the fields commutes with the query for it. -/
theorem filter_write (t : Table α) (key : Nat) (f : α → α) (p : α → Bool)
    (hp : ∀ a, p (f a) = p a) :
    (t.write key f).objects.filter (fun o => p o.2)
      = (t.objects.filter (fun o => p o.2)).map
        (fun o => if o.1 == key then (o.1, f o.2) else o) := by
  simp only [write, List.filter_map]
  congr 1
  apply List.filter_congr
  intro o _
  rw [Function.comp_apply]
  split_ifs
  · exact hp o.2
  · rfl

/-- Deleting one object after another. -/
theorem objects_foldl_delete (p : α → Bool) :
    ∀ (l : List (Nat × α)) (t : Table α),
      (l.foldl (fun t o => if p o.2 then t.deleteObjectRealm o.1 else t) t).objects
        = t.objects.filter (fun o => !l.any (fun o' => p o'.2 && o.1 == o'.1)) := by
  intro l
  induction l with
  | nil =>
      intro t
      simp
  | cons o' l ih =>
      intro t
      rw [List.foldl_cons, ih]
      by_cases hp : p o'.2 = true
      · rw [if_pos hp, deleteObjectRealm, List.filter_filter]
        refine List.filter_congr (fun o _ => ?_)
        simp [hp, Bool.and_comm, bne]
      · simp [hp]

/-- A pass over all objects of a table that deletes some of them. -/
theorem objects_delete_all (p : α → Bool) (t : Table α) :
    (t.objects.foldl (fun t o => if p o.2 then t.deleteObjectRealm o.1 else t) t).objects
      = t.objects.filter (fun o => !p o.2) := by
  rw [objects_foldl_delete]
  apply List.filter_congr
  intro o ho
  congr 1
  rw [Bool.eq_iff_iff, List.any_eq_true]
  constructor
  · rintro ⟨o', ho', hp⟩
    simp only [Bool.and_eq_true, beq_iff_eq] at hp
    rw [List.inj_on_of_nodup_map t.nodup ho ho' hp.2]
    exact hp.1
  · intro hp
    exact ⟨o, ho, by simp [hp]⟩

end Table

end Flamingo
