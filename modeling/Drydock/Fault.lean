/-
  Faults, and accesses that raise one when what they ask for is not there: a member of a row, a key
  of a map.
-/
import Drydock.OrderedMap
import Drydock.Text.Quoted

namespace Drydock

/-- How a rule failed: the kind of fault, and what it says. -/
structure Fault where
  kind : Text
  text : Text
deriving DecidableEq, Repr

namespace Fault

/-- A row of some kind has no member at the place asked for. -/
def outOfRange (row : Text) : Fault := ⟨"IndexError", row ++ " index out of range"⟩

/-- A map does not have the key asked for. -/
def missingKey (key : Text) : Fault := ⟨"KeyError", Text.quoted key⟩

/-- A quotient by zero is asked for. -/
def divisionByZero : Fault := ⟨"ZeroDivisionError", "division by zero"⟩

end Fault

namespace Access

variable {α : Type}

/-- The member at a place of a row. -/
def item (l : List α) (n : Nat) (row : Text := "list") : Except Fault α :=
  match l[n]? with
  | some a => .ok a
  | none => .error (.outOfRange row)

/-- The member at a place of a row, asked for only if the row is long enough. -/
def itemOr (l : List α) (n : Nat) (other : α) (row : Text := "list") : Except Fault α :=
  if n < l.length then item l n row else .ok other

/-- The last member of a row. -/
def last (l : List α) (row : Text := "list") : Except Fault α :=
  match l.getLast? with
  | some a => .ok a
  | none => .error (.outOfRange row)

/-- The value of a key, and the map without it. -/
def pop (m : OrderedMap Text α) (key : Text) : Except Fault (α × OrderedMap Text α) :=
  match m.get? key with
  | some v => .ok (v, m.erase key)
  | none => .error (.missingKey key)

@[simp] theorem item_zero (a : α) (l : List α) (row : Text) : item (a :: l) 0 row = .ok a := rfl

/-- A member that is asked for only if it is there is found. -/
theorem itemOr_eq (l : List α) (n : Nat) (other : α) (row : Text) :
    itemOr l n other row = .ok (l[n]?.getD other) := by
  unfold itemOr
  split
  · rename_i hn
    rw [item, List.getElem?_eq_getElem hn]
    rfl
  · rename_i hn
    rw [List.getElem?_eq_none (Nat.le_of_not_lt hn)]
    rfl

theorem last_of_getLast? {l : List α} {a : α} (h : l.getLast? = some a) (row : Text) :
    last l row = .ok a := by
  rw [last, h]

theorem pop_of_get? {m : OrderedMap Text α} {key : Text} {v : α} (h : m.get? key = some v) :
    pop m key = .ok (v, m.erase key) := by
  rw [pop, h]

end Access

end Drydock
