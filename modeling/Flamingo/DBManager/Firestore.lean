import Flamingo.Lib.StableSort
import Flamingo.Foundation.Date

set_option autoImplicit false

/-! # Firestore documents, collections and queries

A document is an id with a dictionary of typed values, a collection is the list of its
documents. Queries are immutable: `whereField` returns a new query and leaves the receiver as
it is, and a range filter matches only values of its own type, so that a document without a
timestamp is never in the answer to `isGreaterThan` a timestamp.
-/

namespace Flamingo

/-- The values of a document's fields. -/
inductive Value
  | null
  | bool (b : Bool)
  | number (n : Int)
  | string (s : String)
  | timestamp (seconds : Int) (microseconds : Fin 1000000)
  | strings (l : List String)
  | timestamps (l : List Int)
  deriving DecidableEq, Repr

/-- `as? String` -/
def Value.asString : Value → Option String
  | .string s => some s
  | _ => none

/-- `as? Bool`; the numbers 0 and 1 are booleans too. -/
def Value.asBool : Value → Option Bool
  | .bool b => some b
  | .number 0 => some false
  | .number 1 => some true
  | _ => none

/-- `as? Int`; a boolean is a number too. -/
def Value.asInt : Value → Option Int
  | .number n => some n
  | .bool b => some b.toInt
  | _ => none

/-- `as? Timestamp`, and the whole seconds of its `dateValue()`: the dates of appointments have no
fraction. -/
def Value.asTimestamp : Value → Option Int
  | .timestamp seconds _ => some seconds
  | _ => none

/-- The value that is stored for a `Date` without a fraction. -/
def Value.ofSeconds (seconds : Int) : Value := .timestamp seconds ⟨0, Nat.succ_pos 999999⟩

/-- `as? Timestamp`, followed by `dateValue()` -/
def Value.asDate : Value → Option ℚ
  | .timestamp seconds microseconds => some (seconds + microseconds.val / 1000000)
  | _ => none

/-- The value that is stored for a `Date`: what is less than a microsecond is cut off. -/
def Value.ofDate (date : ℚ) : Value :=
  .timestamp ⌊date⌋ (Fin.ofNat 1000000 ⌊Int.fract date * 1000000⌋.toNat)

/-- `document.data()` -/
abbrev DocData := List (String × Value)

/-- `data[key] as? String` -/
def DocData.string? (data : DocData) (key : String) : Option String :=
  (data.lookup key).bind Value.asString

/-- The text of a field; a missing one counts as empty. -/
def DocData.text (data : DocData) (key : String) : String := (data.string? key).getD ""

/-- `data[key] as? Bool` -/
def DocData.bool? (data : DocData) (key : String) : Option Bool :=
  (data.lookup key).bind Value.asBool

/-- `data[key] as? Int` -/
def DocData.int? (data : DocData) (key : String) : Option Int :=
  (data.lookup key).bind Value.asInt

/-- `(data[key] as? Timestamp)?.dateValue()`, in whole seconds -/
def DocData.timestamp? (data : DocData) (key : String) : Option Int :=
  (data.lookup key).bind Value.asTimestamp

/-- `(data[key] as? Timestamp)?.dateValue()` -/
def DocData.date? (data : DocData) (key : String) : Option ℚ :=
  (data.lookup key).bind Value.asDate

/-! ## Dates with a fraction

A date with a fraction counts the seconds from the beginning of the year 1, UTC.
-/

/-- `FIRTimestamp` raises an exception for a date that is not in the years 1 to 9999. -/
def HasTimestamp (date : ℚ) : Prop := 0 ≤ ⌊date⌋ ∧ ⌊date⌋ < 315537897600

/-- The date that is read back of a stored one. -/
def truncated (date : ℚ) : ℚ := ⌊date⌋ + (⌊Int.fract date * 1000000⌋ : ℚ) / 1000000

theorem asDate_ofDate (date : ℚ) : (Value.ofDate date).asDate = some (truncated date) := by
  have hnonneg : 0 ≤ ⌊Int.fract date * 1000000⌋ :=
    Int.floor_nonneg.mpr (mul_nonneg (Int.fract_nonneg date) (by norm_num))
  have hlt : ⌊Int.fract date * 1000000⌋ < 1000000 := by
    refine Int.floor_lt.mpr ?_
    have := Int.fract_lt_one date
    push_cast
    linarith
  have hval : (Fin.ofNat 1000000 ⌊Int.fract date * 1000000⌋.toNat).val
      = ⌊Int.fract date * 1000000⌋.toNat := Nat.mod_eq_of_lt (by omega)
  have hcast : ((⌊Int.fract date * 1000000⌋.toNat : ℕ) : ℚ) = (⌊Int.fract date * 1000000⌋ : ℚ) := by
    exact_mod_cast Int.toNat_of_nonneg hnonneg
  rw [Value.ofDate, Value.asDate, hval, hcast, truncated]

/-- **No fraction is lost** of a date that is a whole number of microseconds, and of no other. -/
theorem truncated_eq_iff (date : ℚ) : truncated date = date ↔ ∃ n : Int, date * 1000000 = n := by
  have hdate : date = ⌊date⌋ + Int.fract date := (Int.floor_add_fract date).symm
  constructor
  · intro heq
    refine ⟨⌊date⌋ * 1000000 + ⌊Int.fract date * 1000000⌋, ?_⟩
    rw [truncated] at heq
    push_cast
    linarith
  · rintro ⟨n, hn⟩
    have hfract : Int.fract date * 1000000 = ((n - ⌊date⌋ * 1000000 : Int) : ℚ) := by
      push_cast
      linarith
    rw [truncated, hfract, Int.floor_intCast, ← hfract]
    linarith

theorem floor_truncated (date : ℚ) : ⌊truncated date⌋ = ⌊date⌋ := by
  have hfloor := Int.floor_le (Int.fract date * 1000000)
  have hlt := Int.fract_lt_one date
  have hnonneg : (0 : ℚ) ≤ ⌊Int.fract date * 1000000⌋ := by
    exact_mod_cast Int.floor_nonneg.mpr (mul_nonneg (Int.fract_nonneg date) (by norm_num))
  rw [truncated, Int.floor_intCast_add, add_eq_left, Int.floor_eq_zero_iff]
  exact ⟨by positivity, by linarith⟩

structure Document where
  documentID : String
  data : DocData
  deriving DecidableEq, Repr

/-! ## Writes -/

/-- `addDocument(data:)`; `id` is the id Firestore generates. -/
def addDocument (collection : List Document) (id : String) (data : DocData) : List Document :=
  collection ++ [⟨id, data⟩]

/-- `document(id).delete()` -/
def deleteDoc (collection : List Document) (id : String) : List Document :=
  collection.filter (fun d => d.documentID != id)

/-- `updateData([key : value])` on a dictionary: the field is replaced or added. -/
def DocData.set (data : DocData) (key : String) (v : Value) : DocData :=
  if data.any (fun f => f.1 == key) then
    data.map (fun f => if f.1 == key then (key, v) else f)
  else data ++ [(key, v)]

/-- `document(id).updateData([key : value])`; it fails on an id that is not there. -/
def updateData (collection : List Document) (id : String) (key : String) (v : Value) :
    List Document :=
  collection.map (fun d => if d.documentID == id then ⟨id, d.data.set key v⟩ else d)

/-! ## Queries -/

inductive FieldFilter
  | isGreaterThan (field : String) (date : Int)
  | isEqualTo (field : String) (text : String)
  deriving DecidableEq, Repr

def FieldFilter.holds (data : DocData) : FieldFilter → Bool
  | .isGreaterThan field date =>
      match data.timestamp? field with
      | some d => decide (date < d)
      | none => false
  | .isEqualTo field text => data.string? field == some text

structure Query where
  collection : String
  filters : List FieldFilter
  deriving DecidableEq, Repr

/-- `firebaseBD.collection(name)` -/
def Query.ofCollection (name : String) : Query := ⟨name, []⟩

def Query.whereField (q : Query) (f : FieldFilter) : Query := { q with filters := q.filters ++ [f] }

/-- The order of the ids, in which documents are returned. -/
def Document.precedes (d d' : Document) : Bool := decide (d.documentID ≤ d'.documentID)

/-- The documents of a collection, as they are returned. -/
def inIdOrder (content : List Document) : List Document :=
  StableSort.sort Document.precedes content

/-- The field of a lower bound orders the documents of a query before their ids do. -/
def Query.precedes (q : Query) (d d' : Document) : Bool :=
  let field := q.filters.findSome? (fun
    | .isGreaterThan field _ => some field
    | .isEqualTo _ _ => none)
  match field.bind d.data.timestamp?, field.bind d'.data.timestamp? with
  | some t, some t' => decide (t < t') || (decide (t = t') && d.precedes d')
  | _, _ => d.precedes d'

/-- The documents a query returns for the content of its collection. -/
def Query.getDocuments (q : Query) (content : List Document) : List Document :=
  StableSort.sort q.precedes (content.filter (fun d => q.filters.all (fun f => f.holds d.data)))

theorem mem_inIdOrder {content : List Document} {d : Document} :
    d ∈ inIdOrder content ↔ d ∈ content :=
  (StableSort.sort_perm _ _).mem_iff

theorem Query.mem_getDocuments {q : Query} {content : List Document} {d : Document} :
    d ∈ q.getDocuments content ↔ d ∈ content ∧ q.filters.all (fun f => f.holds d.data) = true := by
  rw [getDocuments, (StableSort.sort_perm _ _).mem_iff, List.mem_filter]

theorem mem_deleteDoc {collection : List Document} {id : String} {d : Document} :
    d ∈ deleteDoc collection id ↔ d ∈ collection ∧ d.documentID ≠ id := by
  simp [deleteDoc]

end Flamingo
