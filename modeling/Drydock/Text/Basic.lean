/-
  Text as a list of characters, with the few operations that every part of the linter uses:
  joining, cutting at a separator, and looking for one text inside another.
-/
import Drydock.Split

namespace Drydock

/-- Text is a list of Unicode characters, so that statements about it are inductions. -/
abbrev Text := List Char

/-- A string literal may stand where text is expected. -/
instance : Coe String Text := ⟨String.toList⟩

namespace Text

/-- The decimal digits of a natural number. -/
def ofNat (n : Nat) : Text := Nat.toDigits 10 n

/-- An integer in decimal, with a minus sign in front of a negative one. -/
def ofInt : Int → Text
  | .ofNat n => ofNat n
  | .negSucc n => '-' :: ofNat (n + 1)

/-! ## Joining -/

/-- The pieces one after the other. -/
def concat (pieces : List Text) : Text := pieces.flatten

/-- The pieces with `separator` between neighbours. -/
def joinWith (separator : Text) : List Text → Text
  | [] => []
  | [piece] => piece
  | piece :: rest => piece ++ separator ++ joinWith separator rest

@[simp] theorem joinWith_nil (s : Text) : joinWith s [] = [] := rfl

@[simp] theorem joinWith_singleton (s t : Text) : joinWith s [t] = t := rfl

@[simp] theorem joinWith_cons_cons (s t u : Text) (ts : List Text) :
    joinWith s (t :: u :: ts) = t ++ s ++ joinWith s (u :: ts) := rfl

/-! ## Looking inside -/

/-- Whether `part` stands at the front of the text. -/
def startsWith (t part : Text) : Bool := part.isPrefixOf t

/-- Whether `part` stands at the end of the text. -/
def endsWith (t part : Text) : Bool := part.isSuffixOf t

/-- Whether `part` stands somewhere in the text. -/
def includes (part : Text) : Text → Bool
  | [] => part.isEmpty
  | c :: t => part.isPrefixOf (c :: t) || includes part t

/-- The text behind `front`, when the text begins with it. -/
def dropFront? : (front t : Text) → Option Text
  | [], t => some t
  | _ :: _, [] => none
  | a :: front, c :: t => if a = c then dropFront? front t else none

theorem dropFront?_eq_some_iff {front t rest : Text} :
    dropFront? front t = some rest ↔ t = front ++ rest := by
  induction front generalizing t with
  | nil => simp [dropFront?]
  | cons c front ih =>
    cases t with
    | nil => simp [dropFront?]
    | cons d t => by_cases h : c = d <;> simp [dropFront?, h, ih, eq_comm]

/-! ## Cutting -/

/-- The text before the first `separator`, and the text behind it if there is one. -/
def cut (separator : Char) : Text → Text × Option Text
  | [] => ([], none)
  | c :: t =>
    if c = separator then ([], some t)
    else
      let (before, behind) := cut separator t
      (c :: before, behind)

/-- The pieces on both sides of the first separator; a text without one is a single piece. -/
def splitOnce (separator : Char) (t : Text) : List Text :=
  let (before, behind) := cut separator t
  before :: behind.toList

/-- The pieces between separators. -/
def splitOn (separator : Char) (t : Text) : List Text := splitWhere (· == separator) t

/-- What is cut off, the separator and the rest make up the text again. -/
theorem cut_eq_append {s : Char} {t rest : Text} (h : (cut s t).2 = some rest) :
    t = (cut s t).1 ++ s :: rest := by
  induction t with
  | nil => simp [cut] at h
  | cons c t ih =>
    by_cases hc : c = s
    · simp_all [cut]
    · simp only [cut, hc, ↓reduceIte] at h ⊢
      rw [List.cons_append, ← ih h]

theorem cut_of_not_mem {s : Char} {t : Text} (h : s ∉ t) : cut s t = (t, none) := by
  induction t with
  | nil => rfl
  | cons c t ih =>
    rw [List.mem_cons, not_or] at h
    simp [cut, Ne.symm h.1, ih h.2]

theorem cut_append_of_not_mem {s : Char} {t : Text} (h : s ∉ t) (u : Text) :
    cut s (t ++ s :: u) = (t, some u) := by
  induction t with
  | nil => simp [cut]
  | cons c t ih =>
    rw [List.mem_cons, not_or] at h
    simp [cut, Ne.symm h.1, ih h.2]

/-! ## Order -/

/-- Whether a text stands before another in the order of code points, or is the same. -/
def isAtMost : (s t : Text) → Bool
  | [], _ => true
  | _ :: _, [] => false
  | c :: s, d :: t => if c = d then isAtMost s t else c.toNat < d.toNat

/-- Sorts texts by their characters' code points. -/
def sort (texts : List Text) : List Text := texts.mergeSort isAtMost

end Text

end Drydock
