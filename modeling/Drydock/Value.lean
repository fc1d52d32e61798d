/-
  The values that configuration files and JSON documents hold.
-/
import Drydock.Number.Limit

namespace Drydock

/-- A value; a table lists its entries in order of appearance, no key twice. -/
inductive Value where
  | null
  | bool (b : Bool)
  | integer (n : Int)
  | float (x : Float)
  | text (t : Text)
  /-- a date, a time of day, or both, in its written form -/
  | moment (t : Text)
  | array (items : List Value)
  | table (entries : List (Text × Value))

instance : Inhabited Value := ⟨.null⟩

/-- The entries of a table, or of an object in a document. -/
abbrev Table := List (Text × Value)

namespace Table

/-- The value of a key. -/
def get? (table : Table) (key : Text) : Option Value := table.lookup key

/-- Gives a key a value, in its old place or at the end. -/
def put (key : Text) (value : Value) : Table → Table
  | [] => [(key, value)]
  | entry :: rest => if entry.1 = key then (key, value) :: rest else entry :: put key value rest

end Table

namespace Value

/-- The entries of a table. -/
def table? : Value → Option Table
  | .table entries => some entries
  | _ => none

/-- The characters of a text. -/
def text? : Value → Option Text
  | .text t => some t
  | _ => none

mutual

/-- Whether all integers in a value have few enough digits to be written. -/
def isWritable : Value → Bool
  | .integer n => Number.isWritable n
  | .array items => itemsAreWritable items
  | .table entries => entriesAreWritable entries
  | _ => true

/-- Whether all items can be written. -/
def itemsAreWritable : List Value → Bool
  | [] => true
  | item :: rest => isWritable item && itemsAreWritable rest

/-- Whether the values of all entries can be written. -/
def entriesAreWritable : Table → Bool
  | [] => true
  | (_, value) :: rest => isWritable value && entriesAreWritable rest

end

theorem mapM_text?_eq_some_iff {items : List Value} {texts : List Text} :
    items.mapM text? = some texts ↔ items = texts.map .text := by
  induction items generalizing texts with
  | nil => cases texts <;> simp
  | cons item items ih =>
    cases texts with
    | nil =>
      rw [List.mapM_cons]
      cases item.text? <;> cases items.mapM text? <;> simp
    | cons text texts =>
      rw [List.mapM_cons, List.map_cons, List.cons.injEq, ← ih]
      cases item with
      | text found =>
        cases hrest : items.mapM text? <;> simp [text?]
      | _ => simp [text?]

end Value

end Drydock
