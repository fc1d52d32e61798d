/-
  Blank characters, stripping them from the ends of a text, and splitting a text into the words
  between them.
-/
import Drydock.Text.Basic

namespace Drydock.Text

/-- White space in the sense of Unicode, together with the four information separators. -/
def isBlank (c : Char) : Bool :=
  let n := c.toNat
  (9 ≤ n && n ≤ 13) || (28 ≤ n && n ≤ 32) || n = 0x85 || n = 0xA0 || n = 0x1680 ||
    (0x2000 ≤ n && n ≤ 0x200A) || n = 0x2028 || n = 0x2029 || n = 0x202F || n = 0x205F ||
    n = 0x3000

/-! ## Stripping -/

/-- The text without the blanks at its front. -/
def stripLeft (t : Text) : Text := t.dropWhile isBlank

/-- The text without the blanks at its end. -/
def stripRight : Text → Text
  | [] => []
  | c :: t =>
    let rest := stripRight t
    if isBlank c && rest.isEmpty then [] else c :: rest

/-- The text without the blanks at either end. -/
def strip (t : Text) : Text := stripRight (stripLeft t)

@[simp] theorem strip_nil : strip [] = [] := rfl

/-- Stripping the end of a text that holds no blank changes nothing. -/
theorem stripRight_of_no_blank {t : Text} (h : ∀ c ∈ t, isBlank c = false) : stripRight t = t := by
  induction t with
  | nil => rfl
  | cons c t ih =>
    have hc := h c (by simp)
    simp [stripRight, hc, ih fun d hd => h d (by simp [hd])]

theorem stripRight_stripRight (t : Text) : stripRight (stripRight t) = stripRight t := by
  induction t with
  | nil => rfl
  | cons c t ih =>
    by_cases h : isBlank c && (stripRight t).isEmpty
    · simp [stripRight, h]
    · simp only [stripRight, h, Bool.false_eq_true, ↓reduceIte, ih]

/-- Whether the text holds nothing but blanks. -/
def isBlankText (t : Text) : Bool := t.all isBlank

/-! ## Words between blanks -/

/-- The words of a text, which are its longest parts without a blank. -/
def fields (t : Text) : List Text := (splitWhere isBlank t).filter fun word => !word.isEmpty

@[simp] theorem fields_nil : fields [] = [] := rfl

/-- The words on both sides of a blank are found separately. -/
theorem fields_append_blank {c : Char} (h : isBlank c = true) (x y : Text) :
    fields (x ++ c :: y) = fields x ++ fields y := by
  rw [fields, splitWhere_append_cons h, List.filter_append, fields, fields]

/-- The first word of a text, and what follows the blanks behind it. -/
def firstField (t : Text) : Text × Text :=
  let front := stripLeft t
  (front.takeWhile fun c => !isBlank c, stripLeft (front.dropWhile fun c => !isBlank c))

end Drydock.Text
