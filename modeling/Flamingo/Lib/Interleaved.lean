import Flamingo.Lib.Prefixes
import Flamingo.Lib.Writes

set_option autoImplicit false

/-! # Edits of one record by many clients

Every edit gives the same fields of a record new values, in the same order. The writes of a client
arrive in the order in which it has sent them, those of different clients in any order.

When all writes have arrived, every field has the value of the last edit of some client
(`exec_fields`). As all edits write the fields in one order, the fields are independent of each
other: whatever client is chosen for each field, some order of arrival ends with these values
(`exists_mixture`).
-/

universe u v w

structure Interleaved (ι : Type u) (K : Type v) (V : Type w) where
  record : K → V
  /-- the writes of each client that have not arrived -/
  queues : ι → List (K × V)

namespace Interleaved

variable {ι : Type u} {K : Type v} {V : Type w}

inductive Event (ι : Type u) (K : Type v) (V : Type w)
  | edit (i : ι) (value : K → V)
  | write (i : ι)

/-- The writes of an edit. -/
def writes (keys : List K) (value : K → V) : List (K × V) := keys.map (fun k => (k, value k))

theorem map_fst_writes (keys : List K) (value : K → V) :
    (writes keys value).map Prod.fst = keys := by
  rw [writes, List.map_map]
  exact List.map_id keys

def Event.edit? : Event ι K V → Option (ι × (K → V))
  | .edit i value => some (i, value)
  | .write _ => none

variable [DecidableEq ι] [DecidableEq K]

def step (keys : List K) (s : Interleaved ι K V) : Event ι K V → Option (Interleaved ι K V)
  | .edit i value => some { s with
      queues := Function.update s.queues i (s.queues i ++ writes keys value) }
  | .write i =>
      match s.queues i with
      | [] => none
      | w :: rest => some
          { record := Function.update s.record w.1 w.2
            queues := Function.update s.queues i rest }

/-- A record that no client is editing yet. -/
def machine (keys : List K) (old : K → V) : EventMachine (Interleaved ι K V) (Event ι K V) where
  init s := s = ⟨old, fun _ => []⟩
  step := step keys

/-- The edits of one client. -/
def editsOf (edits : List (ι × (K → V))) (i : ι) : List (K → V) :=
  (edits.filter (fun e => e.1 = i)).map Prod.snd

/-- The last edit of a client. -/
def latest (edits : List (ι × (K → V))) (i : ι) : Option (K → V) := (editsOf edits i).getLast?

omit [DecidableEq K] in
theorem editsOf_append_singleton (edits : List (ι × (K → V))) (i j : ι) (value : K → V) :
    editsOf (edits ++ [(i, value)]) j = editsOf edits j ++ if i = j then [value] else [] := by
  rw [editsOf, List.filter_append, List.map_append, editsOf]
  congr 1
  by_cases h : i = j
  · simp [h]
  · simp [h]

/-! ## Every field comes from the last edit of some client -/

/-- What a client has still to write is the end of what it has written. -/
structure Sound (keys : List K) (old : K → V) (s : Interleaved ι K V)
    (edits : List (ι × (K → V))) : Prop where
  queues : ∀ i, s.queues i <:+ (editsOf edits i).flatMap (writes keys)
  fields : (edits = [] ∧ s.record = old) ∨ ∀ k ∈ keys, ∃ i value, latest edits i = some value ∧
    (k ∈ (s.queues i).map Prod.fst ∨ s.record k = value k)

omit [DecidableEq K] in
/-- The last write of a client to a field has the value of its last edit. -/
theorem eq_of_last_write {keys : List K} {values : List (K → V)} {value : K → V} {k : K} {x : V}
    {rest : List (K × V)} (hsuffix : (k, x) :: rest <:+ values.flatMap (writes keys))
    (hlast : values.getLast? = some value) (hrest : k ∉ rest.map Prod.fst) : x = value k := by
  have hmem : ∀ {value : K → V}, (k, x) ∈ writes keys value → k ∈ keys ∧ x = value k := by
    intro value h
    obtain ⟨k', hk', heq⟩ := List.mem_map.mp h
    obtain ⟨rfl, rfl⟩ := Prod.mk.inj heq
    exact ⟨hk', rfl⟩
  have hkey : k ∈ keys := by
    obtain ⟨value', -, h⟩ := List.mem_flatMap.mp (hsuffix.subset List.mem_cons_self)
    exact (hmem h).1
  obtain ⟨before, rfl⟩ := List.getLast?_eq_some_iff.mp hlast
  have hlatest : writes keys value <:+ (before ++ [value]).flatMap (writes keys) := by
    rw [List.flatMap_append, List.flatMap_singleton]
    exact List.suffix_append _ _
  rcases List.suffix_or_suffix_of_suffix hsuffix hlatest with h | h
  · exact (hmem (h.subset List.mem_cons_self)).2
  · rcases List.suffix_cons_iff.mp h with heq | h
    · exact (hmem (heq ▸ List.mem_cons_self)).2
    · -- the last edit would have to write the field once more
      have : k ∈ (writes keys value).map Prod.fst := by rwa [map_fst_writes]
      exact absurd ((h.map Prod.fst).subset this) hrest

omit [DecidableEq K] in
theorem sound_edit {keys : List K} {old : K → V} {s : Interleaved ι K V}
    {edits : List (ι × (K → V))} (hi : Sound keys old s edits) (i : ι) (value : K → V) :
    Sound keys old { s with queues := Function.update s.queues i (s.queues i ++ writes keys value) }
      (edits ++ [(i, value)]) := by
  constructor
  · intro j
    show Function.update s.queues i (s.queues i ++ writes keys value) j
      <:+ (editsOf (edits ++ [(i, value)]) j).flatMap (writes keys)
    rw [editsOf_append_singleton]
    by_cases hij : i = j
    · subst hij
      rw [Function.update_self, if_pos rfl, List.flatMap_append, List.flatMap_singleton]
      obtain ⟨before, hbefore⟩ := hi.queues i
      exact ⟨before, by rw [← hbefore, List.append_assoc]⟩
    · rw [Function.update_of_ne (Ne.symm hij), if_neg hij, List.append_nil]
      exact hi.queues j
  · -- the client that has just edited has every field to write
    refine Or.inr fun k hk => ⟨i, value, ?_, Or.inl ?_⟩
    · show (editsOf (edits ++ [(i, value)]) i).getLast? = some value
      rw [editsOf_append_singleton, if_pos rfl, List.getLast?_concat]
    · show k ∈ (Function.update s.queues i (s.queues i ++ writes keys value) i).map Prod.fst
      rw [Function.update_self, List.map_append, map_fst_writes]
      exact List.mem_append_right _ hk

theorem sound_write {keys : List K} {old : K → V} {s : Interleaved ι K V}
    {edits : List (ι × (K → V))} (hi : Sound keys old s edits) {i : ι} {k' : K} {x : V}
    {rest : List (K × V)} (hqueue : s.queues i = (k', x) :: rest) :
    Sound keys old ⟨Function.update s.record k' x, Function.update s.queues i rest⟩ edits := by
  have hsuffix := hi.queues i
  rw [hqueue] at hsuffix
  constructor
  · intro j
    show Function.update s.queues i rest j <:+ _
    by_cases hij : j = i
    · subst hij
      rw [Function.update_self]
      exact (List.suffix_cons _ _).trans hsuffix
    · rw [Function.update_of_ne hij]
      exact hi.queues j
  · rcases hi.fields with ⟨rfl, -⟩ | hfields
    · -- nobody has sent a write
      exact absurd (List.suffix_nil.mp hsuffix) (List.cons_ne_nil _ _)
    · refine Or.inr fun k hk => ?_
      show ∃ j value, latest edits j = some value ∧
        (k ∈ (Function.update s.queues i rest j).map Prod.fst ∨
          Function.update s.record k' x k = value k)
      by_cases hkey : k = k'
      · -- the client that writes the field
        subst hkey
        have hedited : editsOf edits i ≠ [] := by
          obtain ⟨value, hvalue, -⟩ := List.mem_flatMap.mp (hsuffix.subset List.mem_cons_self)
          exact List.ne_nil_of_mem hvalue
        have hlast := List.getLast?_eq_some_getLast hedited
        refine ⟨i, _, hlast, ?_⟩
        rw [Function.update_self, Function.update_self]
        by_cases hrest : k ∈ rest.map Prod.fst
        · exact Or.inl hrest
        · exact Or.inr (eq_of_last_write hsuffix hlast hrest)
      · obtain ⟨j, value, hvalue, hj⟩ := hfields k hk
        refine ⟨j, value, hvalue, ?_⟩
        rw [Function.update_of_ne hkey]
        by_cases hij : j = i
        · subst hij
          rw [Function.update_self]
          rcases hj with hj | hj
          · rw [hqueue, List.map_cons, List.mem_cons] at hj
            exact Or.inl (hj.resolve_left hkey)
          · exact Or.inr hj
        · rwa [Function.update_of_ne hij]

theorem sound_step {keys : List K} {old : K → V} {s s' : Interleaved ι K V}
    {edits : List (ι × (K → V))} {e : Event ι K V} (hi : Sound keys old s edits)
    (h : step keys s e = some s') : Sound keys old s' (edits ++ e.edit?.toList) := by
  cases e with
  | edit i value =>
      obtain rfl := Option.some.inj h
      exact sound_edit hi i value
  | write i =>
      simp only [step] at h
      split at h
      · cases h
      · rename_i w rest hqueue
        obtain rfl := Option.some.inj h
        show Sound keys old _ (edits ++ [])
        rw [List.append_nil]
        exact sound_write hi hqueue

/-- **Every field** has the value of the last edit of some client when all writes have arrived. -/
theorem exec_fields {keys : List K} {old : K → V} {es : List (Event ι K V)} {s : Interleaved ι K V}
    (h : (machine keys old).exec ⟨old, fun _ => []⟩ es = some s) (hqueues : ∀ i, s.queues i = []) :
    (es.filterMap Event.edit? = [] ∧ s.record = old) ∨ ∀ k ∈ keys, ∃ i value,
      latest (es.filterMap Event.edit?) i = some value ∧ s.record k = value k := by
  have hsound : Sound keys old s (es.filterMap Event.edit?) := by
    have h0 : Sound keys old (⟨old, fun _ => []⟩ : Interleaved ι K V) [] :=
      ⟨fun _ => List.nil_suffix, Or.inl ⟨rfl, rfl⟩⟩
    exact EventMachine.exec_record Event.edit? (Sound keys old)
      (fun _ _ _ _ hi hstep => sound_step hi hstep) h0 h
  rcases hsound.fields with hnone | hfields
  · exact Or.inl hnone
  · refine Or.inr fun k hk => ?_
    obtain ⟨i, value, hvalue, hmem | hrecord⟩ := hfields k hk
    · rw [hqueues i] at hmem
      cases hmem
    · exact ⟨i, value, hvalue, hrecord⟩

/-! ## Every choice of clients is some order of arrival -/

variable (keys : List K) (old : K → V)

/-- The clients of a list have sent all but `rest`, the others have sent nothing. -/
structure Sent (is : List ι) (rest : ι → List (K × V)) (s s' : Interleaved ι K V) : Prop where
  here : ∀ i ∈ is, s'.queues i = rest i
  elsewhere : ∀ i ∉ is, s'.queues i = s.queues i

theorem step_write {s : Interleaved ι K V} {i : ι} {w : K × V} {rest : List (K × V)}
    (h : s.queues i = w :: rest) :
    (machine keys old).step s (.write i)
      = some ⟨Function.update s.record w.1 w.2, Function.update s.queues i rest⟩ := by
  show step keys s (.write i) = _
  simp only [step, h]

theorem exec_edits (edits : List (ι × (K → V))) (s : Interleaved ι K V) :
    (machine keys old).exec s (edits.map (fun e => .edit e.1 e.2))
      = some ⟨s.record, fun i => s.queues i ++ (editsOf edits i).flatMap (writes keys)⟩ := by
  induction edits generalizing s with
  | nil => simp [EventMachine.exec, editsOf]
  | cons e edits ih =>
      rw [List.map_cons, EventMachine.exec]
      show Option.bind (some _) _ = _
      rw [Option.bind_some, ih]
      congr 2
      funext i
      by_cases hi : e.1 = i
      · subst hi
        simp [editsOf, Function.update_self, List.append_assoc]
      · simp [editsOf, hi, Function.update_of_ne (Ne.symm hi)]

/-- One client sends the first of its writes. -/
theorem exec_client (i : ι) (rest : List (K × V)) :
    ∀ (before : List (K × V)) {s : Interleaved ι K V}, s.queues i = before ++ rest →
      ∃ s', (machine keys old).exec s ((List.replicate before.length i).map .write) = some s' ∧
        Sent [i] (fun _ => rest) s s' := by
  intro before
  induction before with
  | nil =>
      intro s h
      refine ⟨s, rfl, ?_, fun _ _ => rfl⟩
      intro j hj
      rw [List.mem_singleton.mp hj]
      exact h
  | cons w before ih =>
      intro s h
      obtain ⟨s', hexec, hsent⟩ := ih (s := ⟨Function.update s.record w.1 w.2,
        Function.update s.queues i (before ++ rest)⟩) (Function.update_self ..)
      refine ⟨s', ?_, hsent.here, fun j hj => ?_⟩
      · rw [List.length_cons, List.replicate_succ, List.map_cons, EventMachine.exec,
          step_write keys old (h.trans (List.cons_append ..)), Option.bind_some]
        exact hexec
      · rw [hsent.elsewhere j hj]
        exact Function.update_of_ne (fun heq => hj (List.mem_singleton.mpr heq)) _ _

/-- All clients send the first of their writes, one client after the other. -/
theorem exists_sent (before rest : ι → List (K × V)) :
    ∀ (is : List ι), is.Nodup → ∀ {s : Interleaved ι K V},
      (∀ i ∈ is, s.queues i = before i ++ rest i) →
      ∃ (ws : List ι) (s' : Interleaved ι K V),
        (machine keys old).exec s (ws.map .write) = some s' ∧ Sent is rest s s' := by
  intro is
  induction is with
  | nil => exact fun _ {s} _ => ⟨[], s, rfl, nofun, fun _ _ => rfl⟩
  | cons i is ih =>
      intro hnodup s h
      obtain ⟨hi, hnodup⟩ := List.nodup_cons.mp hnodup
      obtain ⟨t, ht, hone⟩ := exec_client keys old i (rest i) (before i)
        (h i List.mem_cons_self)
      have hne : ∀ {j : ι}, j ∈ is → j ∉ [i] := by
        rintro j hj hmem
        exact hi (List.mem_singleton.mp hmem ▸ hj)
      obtain ⟨ws, s', hexec, hsent⟩ := ih hnodup (s := t) (fun j hj => by
        rw [hone.elsewhere j (hne hj)]
        exact h j (List.mem_cons_of_mem _ hj))
      refine ⟨List.replicate (before i).length i ++ ws, s', ?_, ?_, ?_⟩
      · rw [List.map_append, EventMachine.exec_append, ht, Option.bind_some, hexec]
      · intro j hj
        rcases List.mem_cons.mp hj with rfl | hj
        · rw [hsent.elsewhere j hi, hone.here j (List.mem_singleton_self j)]
        · exact hsent.here j hj
      · intro j hj
        rw [List.mem_cons, not_or] at hj
        rw [hsent.elsewhere j hj.2, hone.elsewhere j (by simpa using hj.1)]

/-- **A round**: every client writes the same field, and the value of the last one stays. -/
theorem exec_round (k : K) (value : ι → V) (rest : ι → List (K × V)) :
    ∀ (is : List ι), is.Nodup → ∀ {s : Interleaved ι K V},
      (∀ i ∈ is, s.queues i = (k, value i) :: rest i) →
      ∃ s', (machine keys old).exec s (is.map .write) = some s' ∧ Sent is rest s s' ∧
        (∀ c, is.getLast? = some c → s'.record k = value c) ∧
        ∀ k' ≠ k, s'.record k' = s.record k' := by
  intro is
  induction is with
  | nil => exact fun _ {s} _ => ⟨s, rfl, ⟨nofun, fun _ _ => rfl⟩, nofun, fun _ _ => rfl⟩
  | cons i is ih =>
      intro hnodup s h
      obtain ⟨hi, hnodup⟩ := List.nodup_cons.mp hnodup
      obtain ⟨s', hexec, hsent, hlast, hother⟩ := ih hnodup
        (s := ⟨Function.update s.record k (value i), Function.update s.queues i (rest i)⟩)
        (fun j hj => by
          have hne : j ≠ i := fun heq => hi (heq ▸ hj)
          show Function.update s.queues i (rest i) j = _
          rw [Function.update_of_ne hne]
          exact h j (List.mem_cons_of_mem _ hj))
      refine ⟨s', ?_, ⟨?_, ?_⟩, ?_, ?_⟩
      · rw [List.map_cons, EventMachine.exec, step_write keys old (h i List.mem_cons_self),
          Option.bind_some]
        exact hexec
      · intro j hj
        rcases List.mem_cons.mp hj with rfl | hj
        · rw [hsent.elsewhere j hi]
          exact Function.update_self ..
        · exact hsent.here j hj
      · intro j hj
        rw [List.mem_cons, not_or] at hj
        rw [hsent.elsewhere j hj.2]
        exact Function.update_of_ne hj.1 _ _
      · intro c hc
        cases is with
        | nil =>
            -- the last client is the first one
            obtain rfl : i = c := by simpa using hc
            obtain rfl := Option.some.inj hexec
            exact Function.update_self ..
        | cons j is => exact hlast c (by rwa [List.getLast?_cons_cons] at hc)
      · intro k' hk'
        rw [hother k' hk']
        exact Function.update_of_ne hk' _ _

/-- **The rounds**: in the round of each field the chosen client comes last. -/
theorem exists_rounds {is : List ι} (his : is.Nodup) (value : ι → K → V) (r : K → V) :
    ∀ (fields : List K), fields.Nodup → (∀ k ∈ fields, ∃ c ∈ is, r k = value c k) →
      ∀ {s : Interleaved ι K V}, (∀ i ∈ is, s.queues i = writes fields (value i)) →
      ∃ (ws : List ι) (s' : Interleaved ι K V),
        (machine keys old).exec s (ws.map .write) = some s' ∧ Sent is (fun _ => []) s s' ∧
          (∀ k ∈ fields, s'.record k = r k) ∧ ∀ k ∉ fields, s'.record k = s.record k := by
  intro fields
  induction fields with
  | nil => exact fun _ _ {s} h => ⟨[], s, rfl, ⟨h, fun _ _ => rfl⟩, nofun, fun _ _ => rfl⟩
  | cons k fields ih =>
      intro hnodup hchoice s h
      obtain ⟨hk, hnodup⟩ := List.nodup_cons.mp hnodup
      obtain ⟨c, hc, hvalue⟩ := hchoice k List.mem_cons_self
      have hperm : (is.erase c ++ [c]).Perm is :=
        (List.perm_append_singleton c _).trans (List.perm_cons_erase hc).symm
      obtain ⟨t, ht, hround, hlast, hother⟩ := exec_round keys old k
        (fun i => value i k) (fun i => writes fields (value i)) (is.erase c ++ [c])
        (hperm.nodup_iff.mpr his) (fun i hi => h i (hperm.mem_iff.mp hi))
      obtain ⟨ws, s', hexec, hsent, hr, hrest⟩ := ih hnodup
        (fun k' hk' => hchoice k' (List.mem_cons_of_mem _ hk')) (s := t)
        (fun i hi => hround.here i (hperm.mem_iff.mpr hi))
      refine ⟨is.erase c ++ [c] ++ ws, s', ?_, ⟨hsent.here, ?_⟩, ?_, ?_⟩
      · rw [List.map_append, EventMachine.exec_append, ht, Option.bind_some, hexec]
      · intro i hi
        rw [hsent.elsewhere i hi, hround.elsewhere i (fun hmem => hi (hperm.mem_iff.mp hmem))]
      · intro k' hk'
        rcases List.mem_cons.mp hk' with rfl | hk'
        · rw [hrest k' hk, hlast c List.getLast?_concat, hvalue]
        · exact hr k' hk'
      · intro k' hk'
        rw [List.mem_cons, not_or] at hk'
        rw [hrest k' hk'.2, hother k' hk'.1]

/-- **Every mixture** of the last edits of the clients is what some order of arrival ends with. -/
theorem exists_mixture (hkeys : keys.Nodup) (edits : List (ι × (K → V))) (r : K → V)
    (hr : ∀ k ∈ keys, ∃ i value, latest edits i = some value ∧ r k = value k) :
    ∃ (ws : List ι) (s : Interleaved ι K V), (machine keys old).exec ⟨old, fun _ => []⟩
        (edits.map (fun e => .edit e.1 e.2) ++ ws.map .write) = some s ∧
      (∀ i, s.queues i = []) ∧ ∀ k ∈ keys, s.record k = r k := by
  have hedited : ∀ {i : ι}, editsOf edits i ≠ [] ↔ i ∈ (edits.map Prod.fst).dedup := by
    intro i
    rw [List.mem_dedup, editsOf, ne_eq, List.map_eq_nil_iff, List.filter_eq_nil_iff]
    simp
  -- the writes of a client are those of its earlier edits and those of the last one
  have hsplit : ∀ i ∈ (edits.map Prod.fst).dedup,
      (editsOf edits i).flatMap (writes keys) = (editsOf edits i).dropLast.flatMap (writes keys)
        ++ writes keys ((latest edits i).getD old) := by
    intro i hi
    have hne := hedited.mpr hi
    rw [latest, List.getLast?_eq_some_getLast hne, Option.getD_some]
    nth_rewrite 1 [← List.dropLast_append_getLast hne]
    rw [List.flatMap_append, List.flatMap_singleton]
  have hstart := exec_edits keys old edits ⟨old, fun _ => []⟩
  simp only [List.nil_append] at hstart
  obtain ⟨earlier, t, ht, hsent⟩ := exists_sent keys old _ _
    (edits.map Prod.fst).dedup (List.nodup_dedup _)
    (s := ⟨old, fun i => (editsOf edits i).flatMap (writes keys)⟩) hsplit
  obtain ⟨ws, s, hs, hrounds, hrecord, -⟩ := exists_rounds keys old
    (List.nodup_dedup (edits.map Prod.fst)) (fun i => (latest edits i).getD old) r keys hkeys
    (fun k hk => by
      obtain ⟨i, value, hvalue, heq⟩ := hr k hk
      refine ⟨i, hedited.mp ?_, ?_⟩
      · intro hnone
        rw [latest, hnone] at hvalue
        cases hvalue
      · rw [hvalue, heq, Option.getD_some])
    hsent.here
  refine ⟨earlier ++ ws, s, ?_, fun i => ?_, hrecord⟩
  · rw [EventMachine.exec_append, hstart, Option.bind_some, List.map_append,
      EventMachine.exec_append, ht, Option.bind_some, hs]
  · by_cases hi : i ∈ (edits.map Prod.fst).dedup
    · exact hrounds.here i hi
    · rw [hrounds.elsewhere i hi, hsent.elsewhere i hi]
      have hnone : editsOf edits i = [] := by
        by_contra hne
        exact hi (hedited.mp hne)
      show (editsOf edits i).flatMap (writes keys) = []
      rw [hnone, List.flatMap_nil]

end Interleaved
