/-
  Splitting a list at the members that a test accepts.
-/
namespace Drydock

variable {α : Type u}

/-- Puts a member in front of the first of several pieces. -/
def pushFront (a : α) : List (List α) → List (List α)
  | [] => [[a]]
  | piece :: rest => (a :: piece) :: rest

/-- The pieces between the members that `p` accepts; a list without one is a single piece. -/
def splitWhere (p : α → Bool) : List α → List (List α)
  | [] => [[]]
  | a :: l => if p a then [] :: splitWhere p l else pushFront a (splitWhere p l)

theorem pushFront_ne_nil (a : α) (pieces : List (List α)) : pushFront a pieces ≠ [] := by
  cases pieces <;> simp [pushFront]

theorem splitWhere_ne_nil (p : α → Bool) (l : List α) : splitWhere p l ≠ [] := by
  cases l with
  | nil => simp [splitWhere]
  | cons a l => by_cases h : p a <;> simp [splitWhere, h, pushFront_ne_nil]

/-- A split comes apart at every member that is split on. -/
theorem splitWhere_append_cons {p : α → Bool} {a : α} (h : p a = true) (x y : List α) :
    splitWhere p (x ++ a :: y) = splitWhere p x ++ splitWhere p y := by
  induction x with
  | nil => simp [splitWhere, h]
  | cons b x ih =>
    by_cases hb : p b
    · simp [splitWhere, hb, ih]
    · obtain ⟨piece, rest, hx⟩ := List.exists_cons_of_ne_nil (splitWhere_ne_nil p x)
      simp [splitWhere, hb, ih, hx, pushFront]

end Drydock
